import Vynor.Adapters.Normalize
import Vynor.Conversations.Columns

/-!
# Messages that fit their tables

A journaled event has a key of at most 255 characters.  The key bounds the
message id on WhatsApp and the one of a postback on LINE, and the endpoint of
the web chat bounds all it accepts.  Everything else an adapter takes over for a
column is as long as the provider made it.  `Short` says how long that may be,
for each provider (`storable_iff_short`).
-/

namespace Vynor

open Adapters (Record)
open Lib (Json)

/-! ## What an ingest reads of a message -/

/-- `metadataString` of the metadata of a sender. -/
def Participant.metadataString (sender : Participant) (key : String) : Option String :=
  truthy ((sender.metadata.find? fun m => m.1 = key).map Prod.snd)

/-- `metadataString` of the metadata of a message. -/
def NormalizedInboundMessage.metadataString (data : NormalizedInboundMessage) (key : String) :
    Option String :=
  truthy (Adapters.ofString? (Adapters.prop data.metadata key))

/-- A message as `ingestMessage` takes it, with the moment of its time stamp and
its content. -/
def NormalizedInboundMessage.input (data : NormalizedInboundMessage) (timestamp : Date)
    (content : MessageContent) : Conversations.InboundMessage where
  providerMessageId := data.providerMessageId
  sender :=
    { identifier := data.sender.identifier
      displayName := data.sender.displayName
      avatarUrl := data.sender.avatarUrl
      email := data.sender.metadataString "email"
      phone := data.sender.metadataString "phone"
      username := data.sender.metadataString "username" }
  timestamp := timestamp
  content := content
  replyTarget := data.replyTarget
  threadId := data.metadataString "threadId"
  subject := data.metadataString "subject"

/-- Whatever its ingest finds, the message is stored in columns it fits. -/
def Storable (data : NormalizedInboundMessage) : Prop :=
  ∀ timestamp content, Conversations.WritesFit (data.input timestamp content)

theorem storable_iff {data : NormalizedInboundMessage} : Storable data ↔
    data.providerMessageId.length ≤ 512 ∧ data.sender.identifier.length ≤ 255 ∧
      Within 255 (data.sender.metadataString "username") ∧
      Within 255 (data.sender.metadataString "email") ∧
      Within 64 (data.sender.metadataString "phone") ∧ Within 1024 data.sender.avatarUrl := by
  unfold Storable
  constructor
  · intro h
    obtain ⟨hid, hidentifier, husername, hemail, hphone, havatar⟩ :=
      Conversations.writesFit_iff.mp (h 0 (.text ""))
    exact ⟨hid, hidentifier, husername, hemail, hphone, havatar⟩
  · rintro ⟨hid, hidentifier, husername, hemail, hphone, havatar⟩ timestamp content
    exact Conversations.writesFit_iff.mpr ⟨hid, hidentifier, husername, hemail, hphone, havatar⟩

namespace Adapters

/-! ## Journaled events -/

/-- The key fits its column. -/
def ExtractedEvent.KeyFits (e : ExtractedEvent) : Prop := charCount e.providerEventKey ≤ 255

/-- The events of a provider that are journaled. -/
def Journaled (js : Email.Runtime) (provider : ChannelProviderType) (e : ExtractedEvent) : Prop :=
  e.KeyFits ∧
    match provider with
    | .whatsappCloud => ∃ payload, e ∈ WhatsApp.extractEvents payload
    | .metaMessenger =>
        ∃ payload, e ∈ Messaging.extractMessagingEvents payload Messaging.MESSENGER_OBJECT
    | .metaInstagram =>
        ∃ payload, e ∈ Messaging.extractMessagingEvents payload Messaging.INSTAGRAM_OBJECT
    | .telegramBot => ∃ payload, e ∈ Telegram.extractEvents payload
    | .emailSmtpImap => ∃ p date cc attachments,
        Email.IsJournaled js.toRuntime p ∧ e.payload = Email.record p date cc attachments
    | .lineMessaging => ∃ payload, e ∈ Line.extractEvents payload
    | .webchatEmbed => ∃ (request : Webchat.WebchatMessageRequest) (sentAt : String),
        e = request.event sentAt
    | .customWebhook => ∃ payload, e ∈ CustomApi.extractEvents payload

/-- All messages among some results can be stored. -/
def AllStorable (results : List NormalizedInboundResult) : Prop :=
  ∀ data, .message data ∈ results → Storable data

@[simp] theorem allStorable_ignored {reason : String} : AllStorable [.ignored reason] := by
  intro data hdata
  cases List.mem_singleton.mp hdata

@[simp] theorem allStorable_message {data : NormalizedInboundMessage} :
    AllStorable [.message data] ↔ Storable data := by
  constructor
  · exact fun h => h data List.mem_cons_self
  · intro h data' hdata
    cases List.mem_singleton.mp hdata
    exact h

@[simp] theorem allStorable_receipts {α : Type} {items : List α} {f : α → NormalizedDeliveryReceipt} :
    AllStorable (items.map fun i => .deliveryReceipt (f i)) := by
  intro data hdata
  obtain ⟨i, _, h⟩ := List.mem_map.mp hdata
  cases h

@[simp] theorem allStorable_receipt {data : NormalizedDeliveryReceipt} :
    AllStorable [.deliveryReceipt data] := by
  intro data hdata
  cases List.mem_singleton.mp hdata

/-- A key that fits, of a label and a text. -/
theorem length_add_le_of_keyFits {e : ExtractedEvent} {label text : String} (h : e.KeyFits)
    (hkey : e.providerEventKey = codeUnits (label ++ text)) : label.length + text.length ≤ 255 := by
  rwa [ExtractedEvent.KeyFits, hkey, charCount_codeUnits, String.length_append] at h

namespace WhatsApp

/-- The sender of a message fits a phone number, with a plus sign. -/
def Short (payload : Record) : Prop :=
  let message := asRecord (prop payload "message")
  isTruthy (prop payload "status") = false → truthy (asString (prop message "id")) ≠ none →
    ∀ sender, truthy (asString (prop message "from")) = some sender → sender.length ≤ 63

section Lengths

variable {payload : Record} {context : NormalizeContext} {account : AdapterAccount} {now : Date}

theorem storable_inboundMessage {id sender : String} {timestamp : Date} :
    Storable (inboundMessage payload context account id sender timestamp) ↔
      id.length ≤ 512 ∧ sender.length ≤ 63 := by
  have hphone : ("+" ++ sender).length = sender.length + 1 := by
    rw [String.length_append, Nat.add_comm]
    rfl
  simp only [storable_iff, inboundMessage, Participant.metadataString, within_truthy]
  simp [List.find?, hphone]
  omega

theorem allStorable_normalizeStatus {results : List NormalizedInboundResult}
    (h : normalizeStatus payload context now = .ok results) : AllStorable results := by
  simp only [normalizeStatus] at h
  split at h
  · obtain ⟨text, _, rfl⟩ := exists_of_map_ok h
    exact allStorable_ignored
  · obtain ⟨timestamp, _, rfl⟩ := exists_of_map_ok h
    exact allStorable_receipt

theorem allStorable_iff_short {batch : Json} {e : ExtractedEvent}
    {results : List NormalizedInboundResult} (he : e ∈ extractEvents batch) (hfits : e.KeyFits)
    (h : normalizeInbound e.payload context account now = .ok results) :
    AllStorable results ↔ Short e.payload := by
  obtain ⟨id, hevent⟩ | ⟨id, state, hevent⟩ := ofMessage_or_ofStatus he
  · have hstatus : isTruthy (prop e.payload "status") = false := by rw [hevent.noStatus]; rfl
    have hlength : 4 + id.length ≤ 255 := length_add_le_of_keyFits hfits hevent.key
    simp only [normalizeInbound, hstatus, Bool.false_eq_true, if_false, normalizeMessage,
      hevent.id] at h
    simp only [Short, hstatus, hevent.id]
    split at h
    · next sender id' hsender hid =>
        cases hid
        obtain ⟨timestamp, _, rfl⟩ := exists_of_map_ok h
        rw [allStorable_message, storable_inboundMessage, hsender]
        simp
        omega
    · next hnone =>
        cases h
        have hsender : truthy (asString (prop (asRecord (prop e.payload "message")) "from")) = none := by
          cases hsender : truthy (asString (prop (asRecord (prop e.payload "message")) "from")) with
          | none => rfl
          | some sender => exact absurd rfl (hnone sender id hsender)
        simp [hsender]
  · rw [normalizeInbound, hevent.hasStatus, if_pos rfl] at h
    simp [allStorable_normalizeStatus h, Short, hevent.hasStatus]

end Lengths

end WhatsApp

namespace Messaging

def Short (event : Record) (profile : Option ContactProfile) : Prop :=
  isReceipt event = false → ∀ sender, truthy (senderId event) = some sender →
    ∀ id, messageId event sender = some id →
      id.length ≤ 512 ∧ sender.length ≤ 255 ∧
        Within 255 (profile.bind ContactProfile.username) ∧
        Within 1024 ((truthy (profile.bind ContactProfile.avatarUrl)).filter isHttp)

section Lengths

variable {event : Record} {context : NormalizeContext} {account : AdapterAccount} {now : Date}
  {options : Options} {sender : String}

theorem storable_inboundMessage {timestamp : Date} {s : Said} :
    Storable (inboundMessage context account options sender timestamp s) ↔
      s.providerMessageId.length ≤ 512 ∧ sender.length ≤ 255 ∧
        Within 255 (options.profile.bind ContactProfile.username) ∧
        Within 1024 ((truthy (options.profile.bind ContactProfile.avatarUrl)).filter isHttp) := by
  have husername : (inboundMessage context account options sender timestamp s).sender.metadataString
      "username" = truthy (truthy (options.profile.bind ContactProfile.username)) := by
    simp only [Participant.metadataString, inboundMessage]
    cases truthy (options.profile.bind ContactProfile.username) <;> rfl
  have hother {key : String} (hkey : key ≠ "username") :
      (inboundMessage context account options sender timestamp s).sender.metadataString key = none := by
    simp only [Participant.metadataString, inboundMessage]
    cases truthy (options.profile.bind ContactProfile.username) with
    | none => rfl
    | some username => simp [compact, List.find?, hkey.symm, truthy]
  rw [storable_iff, husername, hother (by decide), hother (by decide)]
  simp [inboundMessage]

theorem allStorable_of_receipts {timestamp : Date} {results : List NormalizedInboundResult}
    (h : receipts event context now sender timestamp = .ok results) : AllStorable results := by
  simp only [receipts] at h
  split at h
  · obtain ⟨moment, _, rfl⟩ := exists_of_map_ok h
    exact allStorable_receipt
  · cases h
    exact allStorable_receipts

theorem allStorable_iff_short {results : List NormalizedInboundResult}
    (h : normalizeMessagingEvent event context account options now = .ok results) :
    AllStorable results ↔ Short event options.profile := by
  obtain ⟨hsender, rfl⟩ | ⟨sender, timestamp, hsender, ⟨hreceipt, h⟩ | ⟨hreceipt, s, hsaid, rfl⟩⟩ :=
    cases_of_normalizeMessagingEvent h
  · simp [Short, hsender]
  · simp [Short, hreceipt, allStorable_of_receipts h]
  · simp only [Short, hreceipt, hsender, Option.some.injEq, forall_eq', forall_const,
      ← providerMessageId_of_said hsaid]
    cases s with
    | none => simp [saidResult]
    | some s => simp [saidResult, storable_inboundMessage]

end Lengths

end Messaging

namespace Telegram

/-- The name of a user. -/
def username (user : Record) : Option String := asString (prop user "username")

def ShortCallback (query : Record) : Prop :=
  let user := asRecord (prop query "from")
  let chat := asRecord (prop (asRecord (prop query "message")) "chat")
  ∀ chatId, truthy ((asString (prop chat "id")).or (asString (prop user "id"))) = some chatId →
    ∀ queryId, truthy (asString (prop query "id")) = some queryId →
      -- the id of the message begins with "callback:"
      queryId.length ≤ 503 ∧ chatId.length ≤ 255 ∧ Within 255 (username user)

def ShortMessage (message : Record) : Prop :=
  let chat := asRecord (prop message "chat")
  asString (prop chat "type") = some "private" →
    ∀ chatId, truthy (asString (prop chat "id")) = some chatId →
      ∀ messageId, truthy (asString (prop message "message_id")) = some messageId →
        (chatId ++ ":" ++ messageId).length ≤ 512 ∧ chatId.length ≤ 255 ∧
          Within 255 (username (asRecord (prop message "from")))

def Short (payload : Record) : Prop :=
  if isTruthy (prop payload "callback_query") then
    ShortCallback (asRecord (prop payload "callback_query"))
  else ShortMessage (asRecord (prop payload "message"))

section Lengths

variable {payload : Record} {context : NormalizeContext} {account : AdapterAccount} {now : Date}

theorem metadataString_telegramSender {chatId : String} {user : Record} :
    (telegramSender chatId user).metadataString "username" = truthy (username user) ∧
      (telegramSender chatId user).metadataString "email" = none ∧
      (telegramSender chatId user).metadataString "phone" = none := by
  simp only [Participant.metadataString, telegramSender, username]
  cases asString (prop user "username") <;> cases asString (prop user "language_code") <;>
    refine ⟨rfl, rfl, rfl⟩

/-- Of a sender the id of the chat and the name of the user are stored. -/
theorem storable_iff_sender {data : NormalizedInboundMessage} {chatId : String} {user : Record}
    (h : data.sender = telegramSender chatId user) :
    Storable data ↔ data.providerMessageId.length ≤ 512 ∧ chatId.length ≤ 255 ∧
      Within 255 (username user) := by
  obtain ⟨husername, hemail, hphone⟩ := @metadataString_telegramSender chatId user
  rw [storable_iff, h, husername, hemail, hphone]
  simp [telegramSender]

theorem allStorable_normalizeCallback :
    AllStorable (normalizeCallback payload context account now) ↔
      ShortCallback (asRecord (prop payload "callback_query")) := by
  simp only [normalizeCallback, ShortCallback]
  generalize asRecord (prop payload "callback_query") = query
  generalize truthy ((asString (prop (asRecord (prop (asRecord (prop query "message")) "chat")) "id")).or
    (asString (prop (asRecord (prop query "from")) "id"))) = chatId
  generalize truthy (asString (prop query "id")) = queryId
  cases chatId with
  | none => simp
  | some chatId =>
      cases queryId with
      | none => simp
      | some queryId =>
          have hlength : ("callback:" ++ queryId).length ≤ 512 ↔ queryId.length ≤ 503 := by
            rw [String.length_append, show "callback:".length = 9 from rfl]
            omega
          rw [allStorable_message, storable_iff_sender rfl, hlength]
          simp

theorem allStorable_of_normalizeMessage {results : List NormalizedInboundResult}
    (h : normalizeMessage payload context account now = .ok results) :
    AllStorable results ↔ ShortMessage (asRecord (prop payload "message")) := by
  simp only [normalizeMessage] at h
  simp only [ShortMessage]
  split at h
  · next chatId messageId hchat hmessage =>
      simp only [hchat, hmessage]
      split at h
      · next hprivate =>
          obtain ⟨timestamp, _, rfl⟩ := exists_of_map_ok h
          rw [allStorable_message, storable_iff_sender rfl]
          simp [hprivate, inboundMessage]
      · next hprivate =>
          cases h
          simp [hprivate]
  · next hnone =>
      cases h
      simp only [allStorable_ignored, true_iff]
      intro _ chatId hchat messageId hmessage
      exact (hnone chatId messageId hchat hmessage).elim

theorem allStorable_iff_short {results : List NormalizedInboundResult}
    (h : normalizeInbound payload context account now = .ok results) :
    AllStorable results ↔ Short payload := by
  unfold normalizeInbound at h
  unfold Short
  split at h
  · next hcallback =>
      cases h
      rw [if_pos hcallback]
      exact allStorable_normalizeCallback
  · next hcallback =>
      rw [if_neg hcallback]
      exact allStorable_of_normalizeMessage h

end Lengths

end Telegram

namespace Line

/-- The id of a message, the sender and the URL of the avatar. -/
def Short (payload : Record) (profile : Option ContactProfile) : Prop :=
  let source := asRecord (prop payload "source")
  let messageId := truthy (asString (prop (asRecord (prop payload "message")) "id"))
  let type := asString (prop payload "type")
  asString (prop source "type") = some "user" →
    ∀ userId, truthy (asString (prop source "userId")) = some userId →
      (type = some "message" ∧ messageId ≠ none ∨ type = some "postback") →
        (type = some "message" → Within 512 messageId) ∧ userId.length ≤ 255 ∧
          Within 1024 (profile.bind ContactProfile.avatarUrl)

section Lengths

variable {payload : Record} {context : NormalizeContext} {account : AdapterAccount} {now : Date}
  {profile : Option ContactProfile}

theorem storable_inboundMessage {userId : String} {timestamp : Date} {s : Said} :
    Storable (inboundMessage context account profile userId timestamp s) ↔
      s.providerMessageId.length ≤ 512 ∧ userId.length ≤ 255 ∧
        Within 1024 (profile.bind ContactProfile.avatarUrl) := by
  simp only [storable_iff, inboundMessage, Participant.metadataString, within_truthy]
  simp

/-- The id of a postback is no longer than the key of its event. -/
theorem length_postback_le {batch : Json} {e : ExtractedEvent} (he : e ∈ extractEvents batch)
    (hfits : e.KeyFits) :
    ("postback:" ++ shown (asString (prop e.payload "webhookEventId"))).length ≤ 512 := by
  obtain ⟨id, hid, hkey⟩ := exists_of_mem_extractEvents he
  have hlength : 6 + id.length ≤ 255 := length_add_le_of_keyFits hfits hkey
  rw [(Option.filter_eq_some_iff.mp hid).1, String.length_append,
    show "postback:".length = 9 from rfl, shown, Option.getD_some]
  omega

theorem allStorable_iff_short {batch : Json} {e : ExtractedEvent}
    {results : List NormalizedInboundResult} (he : e ∈ extractEvents batch) (hfits : e.KeyFits)
    (h : normalizeInbound e.payload context account profile now = .ok results) :
    AllStorable results ↔ Short e.payload profile := by
  have hpostback := length_postback_le he hfits
  simp only [normalizeInbound] at h
  simp only [Short]
  by_cases huser : asString (prop (asRecord (prop e.payload "source")) "type") = some "user"
  · rw [if_pos huser] at h
    simp only [huser, forall_const]
    split at h
    · next hnone =>
        cases h
        simp [hnone]
    · next userId huserId =>
        simp only [huserId, Option.some.injEq, forall_eq']
        by_cases hmessage : asString (prop e.payload "type") = some "message"
        · simp only [said, hmessage, if_true] at h
          cases hid : truthy (asString (prop (asRecord (prop e.payload "message")) "id")) with
          | none =>
              rw [hid] at h
              cases h
              simp [hmessage]
          | some id =>
              rw [hid] at h
              obtain ⟨timestamp, _, rfl⟩ := exists_of_map_ok h
              simp [hmessage, storable_inboundMessage]
        · simp only [said, if_neg hmessage] at h
          by_cases hpress : asString (prop e.payload "type") = some "postback"
          · rw [if_pos hpress] at h
            obtain ⟨timestamp, _, rfl⟩ := exists_of_map_ok h
            simp [-String.length_append, hpress, storable_inboundMessage, hpostback]
          · rw [if_neg hpress] at h
            cases h
            simp [hmessage, hpress]
  · rw [if_neg huser] at h
    cases h
    simp [huser]

end Lengths

end Line

namespace CustomApi

/-- The id of the message, and the id, e-mail address and phone number of the
contact. -/
def Short (payload : Record) : Prop :=
  let contact := asRecord (prop payload "contact")
  asString (prop payload "type") ≠ some "status" →
    ∀ messageId, truthy (asString (prop payload "messageId")) = some messageId →
      ∀ contactId, truthy (asString (prop contact "id")) = some contactId →
        truthy (asString (prop payload "text")) ≠ none →
          messageId.length ≤ 512 ∧ contactId.length ≤ 255 ∧
            Within 255 (asString (prop contact "email")) ∧ Within 64 (asString (prop contact "phone"))

section Lengths

variable {payload : Record} {context : NormalizeContext} {account : AdapterAccount} {now : Date}

theorem storable_inboundMessage {messageId contactId text : String} :
    Storable (inboundMessage payload context account now messageId contactId text) ↔
      messageId.length ≤ 512 ∧ contactId.length ≤ 255 ∧
        Within 255 (asString (prop (asRecord (prop payload "contact")) "email")) ∧
        Within 64 (asString (prop (asRecord (prop payload "contact")) "phone")) := by
  simp only [storable_iff, inboundMessage, Participant.metadataString, within_truthy]
  generalize asString (prop (asRecord (prop payload "contact")) "email") = email
  generalize asString (prop (asRecord (prop payload "contact")) "phone") = phone
  cases email <;> cases phone <;> simp [compact, List.find?]

theorem allStorable_iff_short :
    AllStorable (normalizeInbound payload context account now) ↔ Short payload := by
  simp only [normalizeInbound, Short]
  split
  · next hnone => simp [hnone]
  · next messageId hmessage =>
      split
      · next hstatus =>
          split <;> simp [hstatus]
      · next hstatus =>
          split
          · next contactId text hcontact htext =>
              simp [hstatus, hmessage, hcontact, htext, storable_inboundMessage]
          · next hnone =>
              simp only [allStorable_ignored, true_iff]
              intro _ _ _ contactId hcontact htext
              obtain ⟨text, htext⟩ := Option.ne_none_iff_exists'.mp htext
              exact (hnone contactId text hcontact htext).elim

end Lengths

end CustomApi

namespace Email

/-- The Message-ID and the address of the sender. -/
def Short (js : Runtime) (payload : Record) (account : AdapterAccount) : Prop :=
  ∀ address, senderAddress js payload = some address →
    address ≠ js.toLowerCase account.emailAddress → isAutomatic js payload = false →
      (providerMessageId payload).length ≤ 512 ∧ address.length ≤ 255

section Lengths

variable {js : Runtime} {payload : Record} {context : NormalizeContext} {account : AdapterAccount}
  {now : Date}

theorem storable_inboundMessage {address : String} :
    Storable (inboundMessage js payload context account now address) ↔
      (providerMessageId payload).length ≤ 512 ∧ address.length ≤ 255 := by
  simp only [storable_iff, inboundMessage, Participant.metadataString, within_truthy]
  simp [List.find?]

theorem allStorable_iff_short :
    AllStorable (normalizeInbound js payload context account now) ↔ Short js payload account := by
  simp only [normalizeInbound, Short]
  split
  · next hnone => simp [hnone]
  · next address haddress =>
      split
      · next hself => simp [haddress, hself]
      · next hself =>
          split
          · next hautomatic => simp [hautomatic]
          · next hautomatic => simp [haddress, hself, hautomatic, storable_inboundMessage]

end Lengths

end Email

namespace Webchat

section Lengths

variable {toUpperCase : String → String} {context : NormalizeContext} {account : AdapterAccount}
  {now : Date}

theorem storable_inboundMessage {payload : Record} {visitorId clientMessageId text : String} :
    Storable (inboundMessage toUpperCase payload context account now visitorId clientMessageId text) ↔
      (visitorId ++ ":" ++ clientMessageId).length ≤ 512 ∧ visitorId.length ≤ 255 ∧
        Within 255 (asString (prop payload "visitorEmail")) := by
  simp only [storable_iff, inboundMessage, Participant.metadataString, within_truthy]
  generalize asString (prop payload "visitorEmail") = email
  generalize asString (prop payload "pageUrl") = pageUrl
  cases email <;> cases pageUrl <;> simp [compact, List.find?]

/-- What the endpoint accepts fits. -/
theorem allStorable_event {request : WebchatMessageRequest} {sentAt : String} :
    AllStorable
      (normalizeInbound toUpperCase (request.event sentAt).payload context account now) := by
  have hvisitor := Nat.le_trans (length_le_codeUnits _) (length_visitorId_le request.visitorId_pattern)
  have hclient := Nat.le_trans (length_le_codeUnits _)
    (length_clientMessageId_le request.clientMessageId_pattern)
  have hemail : Within 255 (truthy request.email) := within_truthy.mpr fun text htext =>
    Nat.le_trans (length_le_codeUnits text) (request.email_length text htext)
  obtain ⟨hvisitorId, hclientMessageId, hvisitorEmail⟩ :
      asString (prop (request.event sentAt).payload "visitorId") = some request.visitorId ∧
        asString (prop (request.event sentAt).payload "clientMessageId") =
          some request.clientMessageId ∧
        asString (prop (request.event sentAt).payload "visitorEmail") = truthy request.email :=
    asString_record _
  simp only [normalizeInbound, hvisitorId, hclientMessageId]
  split
  · next visitorId clientMessageId text hv hc _ =>
      obtain ⟨heq, _⟩ := Option.filter_eq_some_iff.mp hv
      obtain ⟨heq', _⟩ := Option.filter_eq_some_iff.mp hc
      cases heq
      cases heq'
      rw [allStorable_message, storable_inboundMessage, hvisitorEmail]
      refine ⟨?_, by omega, hemail⟩
      rw [String.length_append, String.length_append, show ":".length = 1 from rfl]
      omega
  · exact allStorable_ignored

end Lengths

end Webchat

/-- How long the texts of a payload may be, for each provider. -/
def Short (around : Surroundings) (account : AdapterAccount) (provider : ChannelProviderType)
    (payload : Record) : Prop :=
  match provider with
  | .whatsappCloud => WhatsApp.Short payload
  | .metaMessenger => Messaging.Short payload around.profile
  | .metaInstagram => Messaging.Short payload around.profile
  | .telegramBot => Telegram.Short payload
  | .emailSmtpImap => Email.Short around.js payload account
  | .lineMessaging => Line.Short payload around.profile
  | .webchatEmbed => True
  | .customWebhook => CustomApi.Short payload

/-- A journaled event, the results of which are messages that can be stored, has
texts as short as their columns demand. -/
theorem storable_iff_short (around : Surroundings) (account : AdapterAccount)
    (context : NormalizeContext) (provider : ChannelProviderType) (e : ExtractedEvent)
    {results : List NormalizedInboundResult} (hjournaled : Journaled around.js provider e)
    (h : normalizeInbound around account context provider e.payload = .ok results) :
    AllStorable results ↔ Short around account provider e.payload := by
  obtain ⟨hfits, hextracted⟩ := hjournaled
  cases provider with
  | whatsappCloud =>
      obtain ⟨batch, he⟩ := hextracted
      exact WhatsApp.allStorable_iff_short he hfits h
  | metaMessenger | metaInstagram => exact Messaging.allStorable_iff_short h
  | telegramBot => exact Telegram.allStorable_iff_short h
  | emailSmtpImap =>
      cases h
      exact Email.allStorable_iff_short
  | lineMessaging =>
      obtain ⟨batch, he⟩ := hextracted
      exact Line.allStorable_iff_short he hfits h
  | webchatEmbed =>
      obtain ⟨request, sentAt, rfl⟩ := hextracted
      cases h
      exact iff_of_true Webchat.allStorable_event trivial
  | customWebhook =>
      cases h
      exact CustomApi.allStorable_iff_short

/-! ## A phone number with a remark -/

/-- A message of the Custom API from a contact with this phone number. -/
def messageFrom (phone : String) : ExtractedEvent where
  providerEventKey := cutKey "msg:m1"
  payload :=
    [("messageId", .string "m1"), ("text", .string "Hi"),
      ("contact", .object [("id", .string "c1"), ("phone", .string phone)])]

theorem journaled_messageFrom {js : Email.Runtime} (phone : String) :
    Journaled js .customWebhook (messageFrom phone) :=
  ⟨charCount_take_le _ _, .object (messageFrom phone).payload, List.mem_singleton.mpr rfl⟩

theorem short_messageFrom {phone : String} :
    CustomApi.Short (messageFrom phone).payload ↔ phone.length ≤ 64 := by
  have hcontact : asRecord (prop (messageFrom phone).payload "contact") =
      [("id", .string "c1"), ("phone", .string phone)] := rfl
  have hphone : asString (prop [("id", .string "c1"), ("phone", .string phone)] "phone") =
      some phone := rfl
  have hemail : asString (prop [("id", .string "c1"), ("phone", .string phone)] "email") = none := rfl
  have hid : truthy (asString (prop [("id", .string "c1"), ("phone", .string phone)] "id")) =
      some "c1" := rfl
  have hmessageId : truthy (asString (prop (messageFrom phone).payload "messageId")) = some "m1" := rfl
  have htext : truthy (asString (prop (messageFrom phone).payload "text")) = some "Hi" := rfl
  have htype : asString (prop (messageFrom phone).payload "type") = none := rfl
  have hlengths : "m1".length ≤ 512 ∧ "c1".length ≤ 255 := by decide
  simp [CustomApi.Short, hcontact, hphone, hemail, hid, hmessageId, htext, htype, hlengths]

/-- A telephone number fits. -/
theorem storable_messageFrom : AllStorable (CustomApi.normalizeInbound
    (messageFrom "+49 30 901820").payload ⟨"workspace", "channel", "e1", "msg:m1"⟩
    ⟨"", "Support", ""⟩ exampleSurroundings.now) :=
  (storable_iff_short exampleSurroundings _ _ .customWebhook _ (journaled_messageFrom _) rfl).mpr
    (short_messageFrom.mpr (by decide))

/-- One with a remark is journaled, and cannot be stored. -/
theorem not_storable : ¬ ∀ around account context provider e results,
    Journaled around.js provider e →
      normalizeInbound around account context provider e.payload = .ok results →
        AllStorable results := by
  intro h
  have hstorable := h exampleSurroundings ⟨"", "Support", ""⟩ ⟨"workspace", "channel", "e1", "msg:m1"⟩
    .customWebhook (messageFrom "+49 30 901820 (extension 4411, or ask for the night shift after six)")
    _ (journaled_messageFrom _) rfl
  have hlength := short_messageFrom.mp (CustomApi.allStorable_iff_short.mp hstorable)
  revert hlength
  decide

end Adapters

end Vynor
