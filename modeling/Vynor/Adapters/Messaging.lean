import Vynor.Adapters.Adapter

/-!
# Messenger and Instagram

`extractMessagingEvents` and `normalizeMessagingEvent`, which both providers
share.  The key of an event and its results look at the kinds of an event in a
different order: a receipt comes first in the results, and after messages and
postbacks in the keys.
-/

namespace Vynor.Adapters.Messaging

open Lib (Json)

/-! ## The events of a batch -/

/-- The sender of an event. -/
def senderId (event : Record) : Option String := asString (prop (asRecord (prop event "sender")) "id")

/-- The time of an event, in a template. -/
def shownTimestamp (event : Record) : String := shown (asString (prop event "timestamp"))

/-- The key of a reaction. -/
def reactionKey (event : Record) (sender : String) : String :=
  let reaction := asRecord (prop event "reaction")
  "reaction:" ++ shown (asString (prop reaction "mid")) ++ ":" ++ sender ++ ":" ++
    shown (asString (prop reaction "action")) ++ ":" ++ shownTimestamp event

/-- The key of an event before it is cut.  An echo has none. -/
def eventKey (event : Record) : Option String :=
  let sender := (senderId event).getD "unknown"
  if isTruthy (prop event "message") then
    let message := asRecord (prop event "message")
    if isTrue (prop message "is_echo") then none
    else (truthy (asString (prop message "mid"))).map fun mid => "mid:" ++ mid
  else if isTruthy (prop event "postback") then
    let postback := asRecord (prop event "postback")
    some ("postback:" ++ (asString (prop postback "mid")).getD (sender ++ ":" ++ shownTimestamp event))
  else if isTruthy (prop event "delivery") then
    let watermark := asString (prop (asRecord (prop event "delivery")) "watermark")
    some ("delivery:" ++ sender ++ ":" ++ shown (watermark.or (asString (prop event "timestamp"))))
  else if isTruthy (prop event "read") then
    let read := asRecord (prop event "read")
    some ("read:" ++ sender ++ ":" ++ shown (((asString (prop read "mid")).or
      (asString (prop read "watermark"))).or (asString (prop event "timestamp"))))
  else if isTruthy (prop event "reaction") then some (reactionKey event sender)
  else none

def extractMessagingEvents (payload : Json) (expectedObject : String) : List ExtractedEvent :=
  let body := asRecord (some payload)
  if isText (prop body "object") expectedObject then
    (asArray (prop body "entry")).flatMap fun rawEntry =>
      let entry := asRecord (some rawEntry)
      (asArray (prop entry "messaging")).filterMap fun rawEvent =>
        let event := asRecord (some rawEvent)
        (eventKey event).map fun key =>
          { providerEventKey := cutKey key
            payload := event
            routingAccountIdentifier := truthy (asString (prop entry "id")) }
  else []

theorem exists_of_mem_extractMessagingEvents {payload : Json} {expectedObject : String}
    {e : ExtractedEvent} (h : e ∈ extractMessagingEvents payload expectedObject) :
    ∃ key, eventKey e.payload = some key ∧ e.providerEventKey = cutKey key := by
  simp only [extractMessagingEvents] at h
  split at h
  · obtain ⟨entry, _, h⟩ := List.mem_flatMap.mp h
    obtain ⟨raw, _, h⟩ := List.mem_filterMap.mp h
    obtain ⟨key, hkey, rfl⟩ := Option.map_eq_some_iff.mp h
    exact ⟨key, hkey, rfl⟩
  · cases h

/-! ## Content -/

/-- `ATTACHMENT_MEDIA`. -/
def ATTACHMENT_MEDIA : List (String × MediaType × String) :=
  [("image", .image, "image/jpeg"), ("video", .video, "video/mp4"), ("audio", .audio, "audio/mpeg"),
    ("file", .document, "application/octet-stream"), ("ig_reel", .video, "video/mp4"),
    ("reel", .video, "video/mp4")]

/-- `labels`. -/
def ATTACHMENT_LABELS : List (String × String) :=
  [("story_mention", "Mentioned you in their story"), ("share", "Shared a post"),
    ("fallback", "Shared a link"), ("template", "Sent a template message")]

/-- The caption of the first of some attachments. -/
def attachmentCaption (text : Option String) (count : Nat) : Option String :=
  let extra := if 1 < count then " (+" ++ toString (count - 1) ++ " more attachments)" else ""
  match truthy text with
  | some text => some (text ++ extra)
  | none => if extra = "" then none else some (trim extra)

/-- `Number(value ?? 0)`. -/
def coordinate (value : Option Json) : Except Thrown Lib.Number :=
  match value with
  | none => .ok (.finite 0)
  | some value => numberOf value

/-- The content of a message with attachments. -/
def attachmentContent (text : Option String) (first : Record) (count : Nat) :
    Except Thrown InboundMessageContent :=
  let type := (asString (prop first "type")).getD "unknown"
  let payload := asRecord (prop first "payload")
  let url := truthy (asString (prop payload "url"))
  match lookup ATTACHMENT_MEDIA type, url with
  | some media, some url =>
      .ok (.media
        { mediaType := media.map Prod.fst
          mimeType := media.map Prod.snd
          url := some url
          caption := attachmentCaption text count })
  | _, _ =>
      if type = "location" then do
        let coords := asRecord (prop payload "coordinates")
        let latitude ← coordinate (prop coords "lat")
        let longitude ← coordinate (prop coords "long")
        .ok (.location latitude longitude none none)
      else
        let description := (lookup ATTACHMENT_LABELS type).getD
          (.own ("Unsupported attachment (" ++ type ++ ")"))
        .ok (.unsupported type (some description) url)

def normalizeMessagingContent (message : Record) : Except Thrown InboundMessageContent :=
  let quickReply := asRecord (prop message "quick_reply")
  let text := asString (prop message "text")
  if isTruthy (prop quickReply "payload") then
    .ok (.interactive .quickReply ((asString (prop quickReply "payload")).getD "") (text.getD "") none)
  else
    let attachments := (asArray (prop message "attachments")).map fun a => asRecord (some a)
    match attachments with
    | first :: _ => attachmentContent text first attachments.length
    | [] =>
        .ok (match text with
          | some text => .text text
          | none => .unsupported "unknown" (some (.own "Unsupported message")) none)

/-! ## Results -/

/-- `NormalizeMessagingOptions`, with the profile the look-up gives, if any. -/
structure Options where
  provider : ChannelProviderType
  channelType : ChannelType
  fallbackName : String → String
  profile : Option ContactProfile

section Normalize

variable (event : Record) (context : NormalizeContext) (account : AdapterAccount)
  (options : Options) (now : Date)

/-- The receipts of an event that is one. -/
def receipts (sender : String) (timestamp : Date) : Except Thrown (List NormalizedInboundResult) :=
  let receipt := asRecord (orNullish (prop event "delivery") (prop event "read"))
  let status := if isTruthy (prop event "read") then DeliveryStatus.read else .delivered
  let mids := (asArray (prop receipt "mids")).filterMap (fun m => truthy (asString (some m))) ++
    (truthy (asString (prop receipt "mid"))).toList
  match mids, truthy (asString (prop receipt "watermark")) with
  | [], some watermark =>
      -- a watermark covers every earlier message to this person
      (toIsoTimestamp (some (.string watermark)) .milliseconds now).map fun moment =>
        [.deliveryReceipt
          { context := context
            providerMessageId := WATERMARK_PREFIX ++ watermark
            recipientIdentifier := sender
            status := .own status
            timestamp := .iso timestamp
            watermark := some moment }]
  | mids, _ =>
      .ok (mids.map fun providerMessageId => .deliveryReceipt
        { context := context
          providerMessageId := providerMessageId
          recipientIdentifier := sender
          status := .own status
          timestamp := .iso timestamp })

/-- What an event that is no receipt has to say: its id, its content and the
message replied to. -/
structure Said where
  providerMessageId : String
  content : InboundMessageContent
  replyTarget : Option String := none

/-- The press of a button. -/
def postbackSaid (sender : String) : Said :=
  let postback := asRecord (prop event "postback")
  { providerMessageId := (asString (prop postback "mid")).getD
      ("postback:" ++ sender ++ ":" ++ shownTimestamp event)
    content := .interactive .buttonReply ((asString (prop postback "payload")).getD "")
      ((asString (prop postback "title")).getD "Button pressed") none }

def reactionSaid (sender : String) : Said :=
  let reaction := asRecord (prop event "reaction")
  let target := (asString (prop reaction "mid")).getD ""
  { providerMessageId := "reaction:" ++ target ++ ":" ++ sender ++ ":" ++ shownTimestamp event
    content := .reaction
      (((asString (prop reaction "emoji")).or (asString (prop reaction "reaction"))).getD "") target
      (if asString (prop reaction "action") = some "unreact" then .unreact else .react) }

/-- A message, if it has an id. -/
def messageSaid : Except Thrown (Option Said) :=
  let message := asRecord (prop event "message")
  match truthy (asString (prop message "mid")) with
  | none => .ok none
  | some mid =>
      (normalizeMessagingContent message).map fun content => some
        { providerMessageId := mid
          content := content
          replyTarget := truthy (asString (prop (asRecord (prop message "reply_to")) "mid")) }

/-- What the event says. -/
def said (sender : String) : Except Thrown (Option Said) :=
  if isTruthy (prop event "postback") then .ok (some (postbackSaid event sender))
  else if isTruthy (prop event "reaction") then .ok (some (reactionSaid event sender))
  else messageSaid event

/-- The id of the message of an event, as the provider gives it or as it is put
together. -/
def messageId (sender : String) : Option String :=
  if isTruthy (prop event "postback") then
    some ((asString (prop (asRecord (prop event "postback")) "mid")).getD
      ("postback:" ++ sender ++ ":" ++ shownTimestamp event))
  else if isTruthy (prop event "reaction") then
    some ("reaction:" ++ (asString (prop (asRecord (prop event "reaction")) "mid")).getD "" ++ ":" ++
      sender ++ ":" ++ shownTimestamp event)
  else truthy (asString (prop (asRecord (prop event "message")) "mid"))

variable {event} in
/-- What an event says has the id `messageId` finds. -/
theorem providerMessageId_of_said {sender : String} {s : Option Said} (h : said event sender = .ok s) :
    s.map Said.providerMessageId = messageId event sender := by
  by_cases hpostback : isTruthy (prop event "postback") = true
  · rw [said, if_pos hpostback] at h
    rw [messageId, if_pos hpostback]
    cases h
    rfl
  · rw [said, if_neg hpostback] at h
    rw [messageId, if_neg hpostback]
    by_cases hreaction : isTruthy (prop event "reaction") = true
    · rw [if_pos hreaction] at h ⊢
      cases h
      rfl
    · rw [if_neg hreaction] at h ⊢
      simp only [messageSaid] at h
      split at h
      · next hnone =>
          cases h
          exact hnone.symm
      · next mid hmid =>
          obtain ⟨content, _, rfl⟩ := exists_of_map_ok h
          exact hmid.symm

/-- `/^https?:\/\//`. -/
def isHttp (url : String) : Bool := url.startsWith "http://" || url.startsWith "https://"

/-- The message of an event. -/
def inboundMessage (sender : String) (timestamp : Date) (s : Said) : NormalizedInboundMessage where
  context := context
  channelType := options.channelType
  provider := options.provider
  providerMessageId := s.providerMessageId
  sender :=
    { identifier := sender
      displayName := some ((options.profile.bind ContactProfile.displayName).getD
        (options.fallbackName sender))
      avatarUrl := (truthy (options.profile.bind ContactProfile.avatarUrl)).filter isHttp
      metadata := compact [("username", truthy (options.profile.bind ContactProfile.username))] }
  recipient :=
    { identifier := account.accountIdentifier, displayName := some account.displayIdentifier }
  timestamp := .iso timestamp
  content := s.content
  replyTarget := s.replyTarget

def normalizeMessagingEvent : Except Thrown (List NormalizedInboundResult) :=
  match truthy (senderId event) with
  | none => .ok [.ignored "Event without sender."]
  | some sender => do
      let timestamp ← toIsoTimestamp (prop event "timestamp") .milliseconds now
      if isTruthy (prop event "delivery") || isTruthy (prop event "read") then
        receipts event context now sender timestamp
      else
        match ← said event sender with
        | none => .ok [.ignored "Message without ID."]
        | some s => .ok [.message (inboundMessage context account options sender timestamp s)]

/-- The event is a receipt. -/
def isReceipt : Bool := isTruthy (prop event "delivery") || isTruthy (prop event "read")

/-- The result of an event that is no receipt. -/
def saidResult (sender : String) (timestamp : Date) : Option Said → NormalizedInboundResult
  | none => .ignored "Message without ID."
  | some s => .message (inboundMessage context account options sender timestamp s)

variable {event context account options now} in
/-- The results of an event with a sender are receipts or one message. -/
theorem cases_of_normalizeMessagingEvent {results : List NormalizedInboundResult}
    (h : normalizeMessagingEvent event context account options now = .ok results) :
    (truthy (senderId event) = none ∧ results = [.ignored "Event without sender."]) ∨
      ∃ sender timestamp, truthy (senderId event) = some sender ∧
        ((isReceipt event = true ∧ receipts event context now sender timestamp = .ok results) ∨
          (isReceipt event = false ∧ ∃ s, said event sender = .ok s ∧
            results = [saidResult context account options sender timestamp s])) := by
  simp only [normalizeMessagingEvent] at h
  split at h
  · next hsender =>
      cases h
      exact .inl ⟨hsender, rfl⟩
  · next sender hsender =>
      obtain ⟨timestamp, _, h⟩ := exists_of_bind_ok h
      refine .inr ⟨sender, timestamp, hsender, ?_⟩
      split at h
      · next hreceipt => exact .inl ⟨hreceipt, h⟩
      · next hreceipt =>
          obtain ⟨s, hsaid, h⟩ := exists_of_bind_ok h
          refine .inr ⟨Bool.eq_false_iff.mpr hreceipt, s, hsaid, ?_⟩
          cases s <;> cases h <;> rfl

end Normalize

/-! ## The two providers -/

/-- The object of a batch of Messenger. -/
def MESSENGER_OBJECT : String := "page"

/-- The object of a batch of Instagram. -/
def INSTAGRAM_OBJECT : String := "instagram"

def messengerOptions (profile : Option ContactProfile) : Options where
  provider := .metaMessenger
  channelType := .messenger
  fallbackName := fun id => "Messenger user " ++ lastFour id
  profile := profile

def instagramOptions (profile : Option ContactProfile) : Options where
  provider := .metaInstagram
  channelType := .instagram
  fallbackName := fun id => "Instagram user " ++ lastFour id
  profile := profile

end Vynor.Adapters.Messaging
