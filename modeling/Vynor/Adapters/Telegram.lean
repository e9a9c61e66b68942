import Vynor.Adapters.Adapter

/-!
# Telegram

`TelegramBotAdapter.extractEvents` and `normalizeInbound`.  An update is one
event.
-/

namespace Vynor.Adapters.Telegram

open Lib (Json numberText)

/-- The event of an update with a number. -/
def extractEvents (payload : Json) : List ExtractedEvent :=
  let update := asRecord (some payload)
  match asNumber (prop update "update_id") with
  | none => []
  | some updateId =>
      [{ providerEventKey := codeUnits ("update:" ++ numberText updateId), payload := update }]

/-- The key of an event is the number of its update. -/
theorem exists_of_mem_extractEvents {payload : Json} {e : ExtractedEvent}
    (h : e ∈ extractEvents payload) :
    ∃ updateId, asNumber (prop e.payload "update_id") = some updateId ∧
      e.providerEventKey = codeUnits ("update:" ++ numberText updateId) := by
  simp only [extractEvents] at h
  split at h
  · cases h
  · next updateId hnumber =>
      cases List.mem_singleton.mp h
      exact ⟨updateId, hnumber, rfl⟩

/-! ## Content -/

def telegramSender (chatId : String) (sender : Record) : Participant :=
  let firstName := asString (prop sender "first_name")
  let lastName := asString (prop sender "last_name")
  let username := asString (prop sender "username")
  let fallback :=
    match truthy username with
    | some username => "@" ++ username
    | none => "Telegram " ++ chatId
  { identifier := chatId
    displayName := some ((truthy (some (" ".intercalate (present [firstName, lastName])))).getD
      fallback)
    metadata := compact
      [("username", username), ("languageCode", asString (prop sender "language_code"))] }

/-- `file_size` of a file. -/
def fileSize (file : Record) : Option Rat := asNumber (prop file "file_size")

def largestPhoto (photos : List Json) : Record :=
  (photos.map fun p => asRecord (some p)).foldl
    (fun best photo => if (fileSize best).getD 0 ≤ (fileSize photo).getD 0 then photo else best) []

def photoContent (photos : List Json) (caption : Option String) : MediaContent :=
  let photo := largestPhoto photos
  { mediaType := .own .image
    mimeType := .own "image/jpeg"
    providerMediaId := asString (prop photo "file_id")
    sizeBytes := fileSize photo
    caption := caption }

/-- `fileKinds`: a member of the message, its media type, and the MIME type of a
file without one. -/
def FILE_KINDS : List (String × MediaType × String) :=
  [("document", .document, "application/octet-stream"), ("video", .video, "video/mp4"),
    ("video_note", .video, "video/mp4"), ("animation", .video, "video/mp4"),
    ("audio", .audio, "audio/mpeg"), ("voice", .voice, "audio/ogg"),
    ("sticker", .sticker, "image/webp")]

def fileContent (message : Record) (caption : Option String)
    (kind : String × MediaType × String) : MediaContent :=
  let file := asRecord (prop message kind.1)
  { mediaType := .own kind.2.1
    mimeType := .own ((asString (prop file "mime_type")).getD kind.2.2)
    providerMediaId := asString (prop file "file_id")
    filename := asString (prop file "file_name")
    sizeBytes := fileSize file
    caption := caption.or (if kind.1 = "sticker" then asString (prop file "emoji") else none) }

def locationContent (message : Record) : InboundMessageContent :=
  let venue := asRecord (prop message "venue")
  let location := asRecord (orNullish (prop message "location") (prop venue "location"))
  .location (.finite ((asNumber (prop location "latitude")).getD 0))
    (.finite ((asNumber (prop location "longitude")).getD 0)) (asString (prop venue "title"))
    (asString (prop venue "address"))

def contactContent (message : Record) : InboundMessageContent :=
  let contact := asRecord (prop message "contact")
  let firstName := (asString (prop contact "first_name")).getD "Contact"
  let lastName := asString (prop contact "last_name")
  .contact
    [{ formattedName := " ".intercalate (present [some firstName, lastName])
       firstName := some firstName
       lastName := lastName
       phones := [{ value := (asString (prop contact "phone_number")).getD "" }] }]

def unsupportedContent (message : Record) : InboundMessageContent :=
  match ["poll", "dice", "game", "story", "invoice"].find? fun key => isTruthy (prop message key) with
  | some known => .unsupported known (some (.own ("Unsupported Telegram " ++ known))) none
  | none => .unsupported "unknown" (some (.own "Unsupported Telegram message")) none

/-- The kind of the first file of a message. -/
def fileKind (message : Record) : Option (String × MediaType × String) :=
  FILE_KINDS.find? fun kind => isTruthy (prop message kind.1)

def normalizeTelegramContent (message : Record) : InboundMessageContent :=
  let caption := asString (prop message "caption")
  match ofString? (prop message "text") with
  | some text => .text text
  | none =>
      match asArray (prop message "photo"), fileKind message with
      | photo :: photos, _ => .media (photoContent (photo :: photos) caption)
      | [], some kind => .media (fileContent message caption kind)
      | [], none =>
          if isTruthy (prop message "location") || isTruthy (prop message "venue") then
            locationContent message
          else if isTruthy (prop message "contact") then contactContent message
          else unsupportedContent message

/-! ## Results -/

section Normalize

variable (payload : Record) (context : NormalizeContext) (account : AdapterAccount) (now : Date)

def recipient : Participant where
  identifier := account.accountIdentifier
  displayName := some account.displayIdentifier

/-- The press of a button. -/
def normalizeCallback : List NormalizedInboundResult :=
  let query := asRecord (prop payload "callback_query")
  let sender := asRecord (prop query "from")
  let chat := asRecord (prop (asRecord (prop query "message")) "chat")
  match truthy ((asString (prop chat "id")).or (asString (prop sender "id"))),
    truthy (asString (prop query "id")) with
  | some chatId, some queryId =>
      [.message
        { context := context
          channelType := .telegram
          provider := .telegramBot
          providerMessageId := "callback:" ++ queryId
          sender := telegramSender chatId sender
          recipient := recipient account
          timestamp := .iso now
          content := .interactive .buttonReply ((asString (prop query "data")).getD "")
            ((asString (prop query "data")).getD "Button pressed") none }]
  | _, _ => [.ignored "Callback without chat."]

/-- The message of an update with a chat and a message id. -/
def inboundMessage (chatId messageId : String) (timestamp : Date) : NormalizedInboundMessage :=
  let message := asRecord (prop payload "message")
  let reply := asRecord (prop message "reply_to_message")
  { context := context
    channelType := .telegram
    provider := .telegramBot
    providerMessageId := chatId ++ ":" ++ messageId
    sender := telegramSender chatId (asRecord (prop message "from"))
    recipient := recipient account
    timestamp := .iso timestamp
    content := normalizeTelegramContent message
    replyTarget := (truthy (asString (prop reply "message_id"))).map fun replyId =>
      chatId ++ ":" ++ replyId }

def normalizeMessage : Except Thrown (List NormalizedInboundResult) :=
  let message := asRecord (prop payload "message")
  let chat := asRecord (prop message "chat")
  match truthy (asString (prop chat "id")), truthy (asString (prop message "message_id")) with
  | some chatId, some messageId =>
      if asString (prop chat "type") = some "private" then
        (toIsoTimestamp (prop message "date") .seconds now).map fun timestamp =>
          [.message (inboundMessage payload context account chatId messageId timestamp)]
      else .ok [.ignored "Group and channel chats are not supported yet."]
  | _, _ => .ok [.ignored "Update type is not synced (edits, channel posts, …)."]

def normalizeInbound : Except Thrown (List NormalizedInboundResult) :=
  if isTruthy (prop payload "callback_query") then .ok (normalizeCallback payload context account now)
  else normalizeMessage payload context account now

end Normalize

end Vynor.Adapters.Telegram
