import Vynor.Adapters.Normalize
import Vynor.Contracts.Summary
import Vynor.Conversations.Ingest

/-!
# Messages without a text

A stored message has the summary of its content as its text.  The texts that the
adapters make up are never empty, and `Untitled` says for each provider when one
of its payloads is a reply whose title is.  Every other payload gives messages
with a text, and so does every accepted content that does not bring an empty text
along (`messages_readable_iff`).
-/

namespace Vynor

open Adapters (Looked)

/-- The text that `ingestInTransaction` stores.  A value that every object
inherits is none, and the database refuses the row. -/
def storedText (content : InboundMessageContent) : Option String :=
  match (AnyMessageContent.inbound content).summarizeMessageContent with
  | .own text => some text
  | .inherited => none

theorem storedText_eq_empty_iff {content : InboundMessageContent} :
    storedText content = some "" ↔ content.HasEmptyText := by
  rw [← summary_inbound_iff, storedText]
  cases (AnyMessageContent.inbound content).summarizeMessageContent with
  | own text => simp
  | inherited => simp

/-- The row of a message has the text of its content. -/
theorem text_newMessage {content : InboundMessageContent} {tx : Conversations.IngestTx}
    {conversationId : Id} {replyTo : Option Id}
    (h : content.plain? = some tx.request.message.content) :
    storedText content = some (Conversations.newMessage tx conversationId replyTo).text := by
  rw [storedText, summarizeMessageContent_of_plain? h]
  rfl

namespace Adapters

open Lib (Json)

/-! ## Results -/

/-- The messages of an outcome are stored with texts that are not empty. -/
def Readable (outcome : Except Thrown (List NormalizedInboundResult)) : Prop :=
  ∀ results, outcome = .ok results →
    ∀ data, .message data ∈ results → storedText data.content ≠ some ""

/-- A message with an empty text. -/
def HasEmptyText : NormalizedInboundResult → Prop
  | .message data => data.content.HasEmptyText
  | _ => False

/-- A value that is no text, or an empty one. -/
def HasNoText (value : Option Json) : Prop := truthy (asString value) = none

/-- The value is a moment, or no number at all. -/
def HasMoment (value : Option Json) (unit : TimeUnit) (now : Date) : Prop :=
  ∃ moment, toIsoTimestamp value unit now = .ok moment

section Readable

variable {results : List NormalizedInboundResult}

theorem readable_ok : Readable (.ok results) ↔ ∀ r ∈ results, ¬ HasEmptyText r := by
  constructor
  · intro h r hr hempty
    cases r with
    | message data => exact h results rfl data hr (storedText_eq_empty_iff.mpr hempty)
    | deliveryReceipt data => exact hempty
    | ignored reason => exact hempty
  · intro h results' heq data hdata hempty
    cases heq
    exact h _ hdata (storedText_eq_empty_iff.mp hempty)

theorem readable_singleton {r : NormalizedInboundResult} :
    Readable (.ok [r]) ↔ ¬ HasEmptyText r := by
  rw [readable_ok, List.forall_mem_singleton]

theorem readable_error (e : Thrown) : Readable (.error e) := by
  intro results h
  cases h

/-- Results that need a value, and have a text whatever it is. -/
theorem readable_map {α : Type} {value : Except Thrown α} {f : α → List NormalizedInboundResult}
    (h : ∀ a, ∀ r ∈ f a, ¬ HasEmptyText r) : Readable (value.map f) := by
  cases value with
  | error e => exact readable_error e
  | ok a => exact readable_ok.mpr (h a)

/-- A result with a moment of the payload. -/
theorem readable_dated {value : Option Json} {unit : TimeUnit} {now : Date}
    {f : Date → NormalizedInboundResult} {P : Prop} (h : ∀ moment, HasEmptyText (f moment) ↔ P) :
    Readable ((toIsoTimestamp value unit now).map fun moment => [f moment]) ↔
      ¬(HasMoment value unit now ∧ P) := by
  rw [HasMoment]
  cases toIsoTimestamp value unit now with
  | error e =>
      refine iff_of_true (readable_error e) ?_
      rintro ⟨⟨moment, hmoment⟩, -⟩
      cases hmoment
  | ok moment =>
      have hmoment : ∃ m, (Except.ok moment : Except Thrown Date) = .ok m := ⟨moment, rfl⟩
      rw [show Except.map (fun moment => [f moment]) (.ok moment) = .ok [f moment] from rfl,
        readable_singleton, and_iff_right hmoment, h]

end Readable

/-! ## WhatsApp -/

namespace WhatsApp

/-- The reply of an interactive message. -/
def reply (message : Record) : Record :=
  let interactive := asRecord (prop message "interactive")
  asRecord (prop interactive
    (if asString (prop interactive "type") = some "list_reply" then "list_reply"
    else "button_reply"))

/-- A reply without a title, or a button without a text. -/
def UntitledContent (message : Record) : Prop :=
  asString (prop message "type") = some "interactive" ∧ HasNoText (prop (reply message) "title") ∨
    asString (prop message "type") = some "button" ∧
      HasNoText (prop (asRecord (prop message "button")) "text")

/-- The event is such a message, and is complete. -/
def Untitled (payload : Record) (now : Date) : Prop :=
  let message := asRecord (prop payload "message")
  isTruthy (prop payload "status") = false ∧ ¬ HasNoText (prop message "from") ∧
    ¬ HasNoText (prop message "id") ∧ HasMoment (prop message "timestamp") .seconds now ∧
    UntitledContent message

theorem hasEmptyText_normalizeWhatsAppContent {message : Record} :
    (normalizeWhatsAppContent message).HasEmptyText ↔ UntitledContent message := by
  have hunknown : "unknown" ≠ "interactive" ∧ "unknown" ≠ "button" := by decide
  rw [UntitledContent, ← getD_eq_iff hunknown.1, ← getD_eq_iff hunknown.2]
  unfold normalizeWhatsAppContent
  generalize (asString (prop message "type")).getD "unknown" = type
  by_cases hinteractive : type = "interactive"
  · subst hinteractive
    have hmedia : (MEDIA_TYPES.find? fun entry => entry.1 = "interactive") = none := by decide
    simp [hmedia, interactiveContent, InboundMessageContent.HasEmptyText, getD_eq_empty_iff,
      HasNoText, reply]
  · by_cases hbutton : type = "button"
    · subst hbutton
      have hmedia : (MEDIA_TYPES.find? fun entry => entry.1 = "button") = none := by decide
      simp [hmedia, buttonContent, InboundMessageContent.HasEmptyText, getD_eq_empty_iff, HasNoText]
    · simp only [hinteractive, hbutton, if_false, false_and, or_false, iff_false]
      split
      · exact id
      split
      · exact id
      split
      · exact id
      split
      · exact id
      split
      · exact id
      · simp only [unsupportedContent, InboundMessageContent.HasEmptyText, Option.some.injEq,
          Looked.own.injEq]
        split
        · rw [String.append_assoc]
          exact append_ne_empty (by decide)
        · rw [String.append_assoc]
          exact append_ne_empty (by decide)

theorem readable_iff {payload : Record} {context : NormalizeContext} {account : AdapterAccount}
    {now : Date} :
    Readable (normalizeInbound payload context account now) ↔ ¬ Untitled payload now := by
  rw [normalizeInbound, Untitled]
  cases hstatus : isTruthy (prop payload "status") with
  | true =>
      simp only [if_true, Bool.true_eq_false, false_and, not_false_eq_true, iff_true]
      rw [normalizeStatus]
      split
      · exact readable_map (by simp [HasEmptyText])
      · exact readable_map (by simp [HasEmptyText])
  | false =>
      simp only [Bool.false_eq_true, if_false, normalizeMessage, true_and]
      generalize hmessage : asRecord (prop payload "message") = message
      rw [HasNoText, HasNoText]
      cases truthy (asString (prop message "from")) with
      | none => simp [readable_singleton, HasEmptyText]
      | some sender =>
          cases truthy (asString (prop message "id")) with
          | none => simp [readable_singleton, HasEmptyText]
          | some id =>
              simp only [reduceCtorEq, not_false_eq_true, true_and]
              refine readable_dated fun moment => ?_
              rw [← hasEmptyText_normalizeWhatsAppContent, ← hmessage]
              rfl

end WhatsApp

/-! ## Messenger and Instagram -/

namespace Messaging

/-- A quick reply without a text. -/
def UntitledContent (message : Record) : Prop :=
  isTruthy (prop (asRecord (prop message "quick_reply")) "payload") = true ∧
    HasNoText (prop message "text")

/-- The press of a button with an empty title, or a message that is a quick reply
without a text. -/
def UntitledSaid (event : Record) : Prop :=
  if isTruthy (prop event "postback") then
    asString (prop (asRecord (prop event "postback")) "title") = some ""
  else
    let message := asRecord (prop event "message")
    isTruthy (prop event "reaction") = false ∧ ¬ HasNoText (prop message "mid") ∧
      UntitledContent message

/-- The event says so, and is complete and no receipt. -/
def Untitled (event : Record) (now : Date) : Prop :=
  truthy (senderId event) ≠ none ∧ HasMoment (prop event "timestamp") .milliseconds now ∧
    isReceipt event = false ∧ UntitledSaid event

/-- No label is empty. -/
theorem lookup_label_ne_empty (type : String) : lookup ATTACHMENT_LABELS type ≠ some (.own "") := by
  have hall : ATTACHMENT_LABELS.all (fun entry => entry.2 ≠ "") = true := by decide
  rw [lookup]
  split
  · next entry hentry =>
      have hlabel := List.all_eq_true.mp hall entry (List.mem_of_find?_eq_some hentry)
      simpa using hlabel
  · split
    · simp
    · simp

/-- What an attachment is made into has a text. -/
theorem not_hasEmptyText_attachmentContent {text : Option String} {first : Record} {count : Nat}
    {content : InboundMessageContent} (h : attachmentContent text first count = .ok content) :
    ¬ content.HasEmptyText := by
  simp only [attachmentContent] at h
  split at h
  · cases h
    exact id
  · split at h
    · obtain ⟨latitude, -, h⟩ := exists_of_bind_ok h
      obtain ⟨longitude, -, h⟩ := exists_of_bind_ok h
      cases h
      exact id
    · cases h
      simp only [InboundMessageContent.HasEmptyText, Option.some.injEq]
      cases hlabel : lookup ATTACHMENT_LABELS ((asString (prop first "type")).getD "unknown") with
      | none =>
          rw [Option.getD_none, Looked.own.injEq, String.append_assoc]
          exact append_ne_empty (by decide)
      | some label =>
          intro hempty
          rw [Option.getD_some] at hempty
          exact lookup_label_ne_empty _ (hlabel.trans (congrArg some hempty))

theorem hasEmptyText_normalizeMessagingContent {message : Record} :
    (∃ content, normalizeMessagingContent message = .ok content ∧ content.HasEmptyText) ↔
      UntitledContent message := by
  rw [UntitledContent, HasNoText, ← getD_eq_empty_iff]
  simp only [normalizeMessagingContent]
  split
  · next hquick => simp [hquick, InboundMessageContent.HasEmptyText]
  · next hquick =>
      rw [iff_false_intro hquick, false_and, iff_false]
      rintro ⟨content, hcontent, hempty⟩
      split at hcontent
      · exact not_hasEmptyText_attachmentContent hcontent hempty
      · cases hcontent
        split at hempty
        · exact hempty
        · simp [InboundMessageContent.HasEmptyText] at hempty

theorem hasEmptyText_said {event : Record} {sender : String} :
    (∃ s, said event sender = .ok (some s) ∧ s.content.HasEmptyText) ↔ UntitledSaid event := by
  rw [UntitledSaid, said]
  by_cases hpostback : isTruthy (prop event "postback") = true
  · rw [if_pos hpostback, if_pos hpostback]
    simp only [Except.ok.injEq, Option.some.injEq, exists_eq_left', postbackSaid,
      InboundMessageContent.HasEmptyText]
    exact getD_eq_iff (by decide)
  · rw [if_neg hpostback, if_neg hpostback]
    cases hreaction : isTruthy (prop event "reaction") with
    | true => simp [reactionSaid, InboundMessageContent.HasEmptyText]
    | false =>
        simp only [Bool.false_eq_true, if_false, messageSaid, HasNoText, true_and]
        cases truthy (asString (prop (asRecord (prop event "message")) "mid")) with
        | none => simp
        | some mid =>
            rw [← hasEmptyText_normalizeMessagingContent]
            cases normalizeMessagingContent (asRecord (prop event "message")) with
            | error e => simp [Except.map]
            | ok content => simp [Except.map]

/-- Receipts have no text. -/
theorem readable_receipts {event : Record} {context : NormalizeContext} {now : Date}
    {sender : String} {timestamp : Date} :
    Readable (receipts event context now sender timestamp) := by
  rw [receipts]
  split
  · exact readable_map (by simp [HasEmptyText])
  · refine readable_ok.mpr ?_
    rw [List.forall_mem_map]
    exact fun providerMessageId _ => id

theorem readable_iff {event : Record} {context : NormalizeContext} {account : AdapterAccount}
    {options : Options} {now : Date} :
    Readable (normalizeMessagingEvent event context account options now) ↔
      ¬ Untitled event now := by
  rw [normalizeMessagingEvent, Untitled]
  cases hsender : truthy (senderId event) with
  | none => simp [readable_singleton, HasEmptyText]
  | some sender =>
      cases hmoment : toIsoTimestamp (prop event "timestamp") .milliseconds now with
      | error e => exact iff_of_true (readable_error e) (by simp [HasMoment, hmoment])
      | ok timestamp =>
          have htime : HasMoment (prop event "timestamp") .milliseconds now := ⟨timestamp, hmoment⟩
          have hsome : some sender ≠ none := Option.some_ne_none sender
          rw [and_iff_right hsome, and_iff_right htime, ← hasEmptyText_said, isReceipt]
          cases hreceipt : (isTruthy (prop event "delivery") || isTruthy (prop event "read")) with
          | true =>
              simp only [bind, Except.bind, if_true, readable_receipts,
                Bool.true_eq_false, false_and, not_false_eq_true]
          | false =>
              simp only [bind, Except.bind, Bool.false_eq_true, if_false, true_and]
              cases said event sender with
              | error e => exact iff_of_true (readable_error e) (by simp)
              | ok s =>
                  cases s with
                  | none => simp [readable_singleton, HasEmptyText]
                  | some s => simp [readable_singleton, HasEmptyText, inboundMessage]

end Messaging

/-! ## Telegram -/

namespace Telegram

/-- The press of a button with empty data, in a chat. -/
def Untitled (payload : Record) : Prop :=
  let query := asRecord (prop payload "callback_query")
  let chat := asRecord (prop (asRecord (prop query "message")) "chat")
  isTruthy (prop payload "callback_query") = true ∧
    truthy ((asString (prop chat "id")).or (asString (prop (asRecord (prop query "from")) "id"))) ≠
      none ∧
    ¬ HasNoText (prop query "id") ∧ asString (prop query "data") = some ""

/-- Every message that is no press of a button has a text. -/
theorem not_hasEmptyText_normalizeTelegramContent (message : Record) :
    ¬ (normalizeTelegramContent message).HasEmptyText := by
  unfold normalizeTelegramContent
  split
  · exact id
  split
  · exact id
  · exact id
  split
  · exact id
  split
  · exact id
  · rw [unsupportedContent]
    split
    · simp [InboundMessageContent.HasEmptyText]
    · simp [InboundMessageContent.HasEmptyText]

theorem readable_normalizeMessage {payload : Record} {context : NormalizeContext}
    {account : AdapterAccount} {now : Date} :
    Readable (normalizeMessage payload context account now) := by
  rw [normalizeMessage]
  split
  · split
    · refine readable_map fun moment => ?_
      rw [List.forall_mem_singleton]
      exact not_hasEmptyText_normalizeTelegramContent _
    · exact readable_singleton.mpr id
  · exact readable_singleton.mpr id

theorem readable_iff {payload : Record} {context : NormalizeContext} {account : AdapterAccount}
    {now : Date} :
    Readable (normalizeInbound payload context account now) ↔ ¬ Untitled payload := by
  rw [normalizeInbound, Untitled]
  cases hcallback : isTruthy (prop payload "callback_query") with
  | false =>
      simp only [Bool.false_eq_true, if_false, false_and, not_false_eq_true, iff_true]
      exact readable_normalizeMessage
  | true =>
      simp only [if_true, true_and, readable_ok, normalizeCallback, HasNoText]
      generalize asRecord (prop payload "callback_query") = query
      cases truthy ((asString (prop (asRecord (prop (asRecord (prop query "message")) "chat"))
        "id")).or (asString (prop (asRecord (prop query "from")) "id"))) with
      | none => simp [HasEmptyText]
      | some chatId =>
          cases truthy (asString (prop query "id")) with
          | none => simp [HasEmptyText]
          | some queryId =>
              have htitle (data : Option String) :
                  data.getD "Button pressed" = "" ↔ data = some "" := getD_eq_iff (by decide)
              simp [HasEmptyText, InboundMessageContent.HasEmptyText, htitle]

end Telegram

/-! ## LINE -/

namespace Line

/-- The press of a button with empty data, of a user. -/
def Untitled (payload : Record) (now : Date) : Prop :=
  let source := asRecord (prop payload "source")
  asString (prop source "type") = some "user" ∧ ¬ HasNoText (prop source "userId") ∧
    asString (prop payload "type") = some "postback" ∧
    HasMoment (prop payload "timestamp") .milliseconds now ∧
    asString (prop (asRecord (prop payload "postback")) "data") = some ""

/-- Every message that is no press of a button has a text. -/
theorem not_hasEmptyText_normalizeLineContent (message : Record) :
    ¬ (normalizeLineContent message).HasEmptyText := by
  simp only [normalizeLineContent]
  split
  · exact id
  split
  · exact id
  split
  · exact id
  split
  · exact id
  split
  · simp [InboundMessageContent.HasEmptyText]
  · simp [InboundMessageContent.HasEmptyText]

/-- An empty text is that of a button. -/
theorem hasEmptyText_said {payload : Record} {type : Option String} {s : Said}
    (h : said payload type = .inl s) :
    s.content.HasEmptyText ↔
      type = some "postback" ∧
        asString (prop (asRecord (prop payload "postback")) "data") = some "" := by
  simp only [said] at h
  split at h
  · next hmessage =>
      split at h
      · cases h
      · cases h
        refine iff_of_false (not_hasEmptyText_normalizeLineContent _) ?_
        simp [hmessage]
  · split at h
    · next hpostback =>
        cases h
        rw [and_iff_right hpostback]
        exact getD_eq_iff (by decide)
    · cases h

/-- A button always says something. -/
theorem said_ne_inr {payload : Record} {reason : String} :
    said payload (some "postback") ≠ .inr reason := by
  simp [said]

theorem readable_iff {payload : Record} {context : NormalizeContext} {account : AdapterAccount}
    {profile : Option ContactProfile} {now : Date} :
    Readable (normalizeInbound payload context account profile now) ↔ ¬ Untitled payload now := by
  rw [normalizeInbound, Untitled]
  by_cases huser : asString (prop (asRecord (prop payload "source")) "type") = some "user"
  · simp only [huser, if_true, true_and, HasNoText]
    cases truthy (asString (prop (asRecord (prop payload "source")) "userId")) with
    | none => simp [readable_singleton, HasEmptyText]
    | some userId =>
        simp only [reduceCtorEq, not_false_eq_true, true_and]
        cases hsaid : said payload (asString (prop payload "type")) with
        | inr reason =>
            refine iff_of_true (readable_singleton.mpr id) ?_
            rintro ⟨hpostback, -⟩
            rw [hpostback] at hsaid
            exact said_ne_inr hsaid
        | inl s =>
            simp only
            rw [and_left_comm, ← hasEmptyText_said hsaid]
            exact readable_dated fun moment => Iff.rfl
  · simp [huser, readable_singleton, HasEmptyText]

end Line

/-! ## The other channels -/

theorem Webchat.readable {toUpperCase : String → String} {payload : Record}
    {context : NormalizeContext} {account : AdapterAccount} {now : Date} :
    Readable (.ok (normalizeInbound toUpperCase payload context account now)) := by
  rw [normalizeInbound]
  split
  · exact readable_singleton.mpr id
  · exact readable_singleton.mpr id

theorem CustomApi.readable {payload : Record} {context : NormalizeContext}
    {account : AdapterAccount} {now : Date} :
    Readable (.ok (normalizeInbound payload context account now)) := by
  rw [normalizeInbound]
  split
  · exact readable_singleton.mpr id
  split
  · split
    · exact readable_singleton.mpr id
    · exact readable_singleton.mpr id
  · split
    · exact readable_singleton.mpr id
    · exact readable_singleton.mpr id

theorem Email.readable {js : Runtime} {payload : Record} {context : NormalizeContext}
    {account : AdapterAccount} {now : Date} :
    Readable (.ok (normalizeInbound js payload context account now)) := by
  rw [normalizeInbound]
  split
  · exact readable_singleton.mpr id
  split
  · exact readable_singleton.mpr id
  split
  · exact readable_singleton.mpr id
  · exact readable_singleton.mpr id

/-! ## All messages -/

/-- The payload is that of a reply whose title is empty.  Three channels carry
texts only, and replace or refuse an empty one. -/
def Untitled (provider : ChannelProviderType) (payload : Record) (now : Date) : Prop :=
  match provider with
  | .whatsappCloud => WhatsApp.Untitled payload now
  | .metaMessenger => Messaging.Untitled payload now
  | .metaInstagram => Messaging.Untitled payload now
  | .telegramBot => Telegram.Untitled payload
  | .lineMessaging => Line.Untitled payload now
  | .emailSmtpImap => False
  | .webchatEmbed => False
  | .customWebhook => False

theorem readable_normalizeInbound (around : Surroundings) (account : AdapterAccount)
    (context : NormalizeContext) (provider : ChannelProviderType) (payload : Record) :
    Readable (normalizeInbound around account context provider payload) ↔
      ¬ Untitled provider payload around.now := by
  cases provider with
  | whatsappCloud => exact WhatsApp.readable_iff
  | metaMessenger | metaInstagram => exact Messaging.readable_iff
  | telegramBot => exact Telegram.readable_iff
  | lineMessaging => exact Line.readable_iff
  | emailSmtpImap => exact iff_of_true Email.readable id
  | webchatEmbed => exact iff_of_true Webchat.readable id
  | customWebhook => exact iff_of_true CustomApi.readable id

/-- The summary of a content is a text, and not an empty one. -/
def HasText (content : AnyMessageContent) : Prop :=
  ∃ text, content.summarizeMessageContent = .own text ∧ text ≠ ""

theorem hasText_iff {content : AnyMessageContent} {text : String}
    (h : content.summarizeMessageContent = .own text) :
    HasText content ↔ content.summarizeMessageContent ≠ .own "" := by
  rw [HasText, h]
  simp

/-- The messages of a payload have a text unless it is that of a reply with an
empty title, and an accepted content has one unless it brings an empty text along. -/
theorem messages_readable_iff (around : Surroundings) (account : AdapterAccount)
    (context : NormalizeContext) (provider : ChannelProviderType) (payload : Record) (zod : Zod)
    (inbound : InboundMessageContent) (outbound : OutboundMessageContent) :
    (Readable (normalizeInbound around account context provider payload) ↔
      ¬ Untitled provider payload around.now) ∧
    (inbound.accepted zod = true → (HasText (.inbound inbound) ↔ ¬ inbound.HasEmptyText)) ∧
    (outbound.accepted zod = true → (HasText (.outbound outbound) ↔ ¬ outbound.HasEmptyText)) := by
  refine ⟨readable_normalizeInbound around account context provider payload, ?_, ?_⟩
  · intro haccepted
    obtain ⟨text, htext⟩ := exists_summary_of_accepted haccepted
    rw [hasText_iff htext, ne_eq, summary_inbound_iff]
  · intro _
    obtain ⟨text, htext⟩ := exists_summary_outbound outbound
    rw [hasText_iff htext, ne_eq, summary_outbound_iff]

/-- A choice from a list. -/
def exampleListReply : Record :=
  [("message", .object
    [("from", .string "15551230000"), ("id", .string "wamid.2"), ("type", .string "interactive"),
      ("interactive", .object
        [("type", .string "list_reply"),
          ("list_reply", .object [("id", .string "1"), ("title", .string "Blue")])])])]

theorem messages_readable_listReply :
    Readable (normalizeInbound exampleSurroundings ⟨"", "Support", ""⟩
      ⟨"workspace", "channel", "e2", "msg:wamid.2"⟩ .whatsappCloud exampleListReply) ∧
    HasText (.inbound (.interactive .listReply "1" "Blue" none)) ∧
    HasText (.outbound (.text "Hi")) := by
  let zod : Zod := ⟨fun _ => true, fun _ => true, fun _ => true⟩
  have htitled : "Blue" ≠ "" := by decide
  obtain ⟨hpayload, hinbound, houtbound⟩ := messages_readable_iff exampleSurroundings
    ⟨"", "Support", ""⟩ ⟨"workspace", "channel", "e2", "msg:wamid.2"⟩ .whatsappCloud
    exampleListReply zod (.interactive .listReply "1" "Blue" none) (.text "Hi")
  refine ⟨hpayload.mpr ?_, (hinbound rfl).mpr htitled, (houtbound rfl).mpr id⟩
  rintro ⟨-, -, -, -, ⟨-, htitle⟩ | ⟨htype, -⟩⟩
  · cases htitle
  · revert htype
    decide

/-- A reply to a form, which has neither a list nor a button. -/
def exampleFormReply : Record :=
  [("message", .object
    [("from", .string "15551230000"), ("id", .string "wamid.1"), ("type", .string "interactive"),
      ("interactive", .object
        [("type", .string "nfm_reply"), ("nfm_reply", .object [("body", .string "Sent")])])])]

/-- Its title is empty, and the schemas accept empty titles and bodies. -/
theorem not_messages_readable :
    (¬ ∀ around account context provider payload,
      Readable (normalizeInbound around account context provider payload)) ∧
    (¬ ∀ zod (content : InboundMessageContent), content.accepted zod = true →
      HasText (.inbound content)) ∧
    ¬ ∀ zod (content : OutboundMessageContent), content.accepted zod = true →
      HasText (.outbound content) := by
  refine ⟨?_, ?_, ?_⟩
  · intro h
    have hreadable := h exampleSurroundings ⟨"", "Support", ""⟩
      ⟨"workspace", "channel", "e1", "msg:wamid.1"⟩ .whatsappCloud exampleFormReply
    exact hreadable _ rfl _ List.mem_cons_self rfl
  · intro h
    obtain ⟨text, htext, hne⟩ := h ⟨fun _ => true, fun _ => true, fun _ => true⟩
      (.interactive .buttonReply "" "" none) rfl
    cases htext
    exact hne rfl
  · intro h
    obtain ⟨text, htext, hne⟩ := h ⟨fun _ => true, fun _ => true, fun _ => true⟩
      (.interactive "" none none (.buttons [])) rfl
    cases htext
    exact hne rfl

end Adapters

end Vynor
