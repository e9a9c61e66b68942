import Vynor.Adapters.Normalize

/-!
# Payloads that keep the contract

An adapter passes most of a payload on as text, which every schema accepts.  The
contract depends on the rest: moments, sizes, coordinates, addresses of files
and of people, and names that are looked up in an object literal.  `Sound` says
what they have to be, for each provider, and `conforms_iff_sound` that nothing
else is needed.
-/

namespace Vynor.Adapters

open Lib (Json)

/-- The value is a moment whose year has four digits, or no number at all and
the time at hand is one. -/
def HasDate (value : Option Json) (unit : TimeUnit) (now : Date) : Prop :=
  ∃ moment, toIsoTimestamp value unit now = .ok moment ∧ hasFourDigitYear moment = true

/-- A result with a moment of the payload, and what else it needs. -/
theorem conforms_dated {zod : Zod} {value : Option Json} {unit : TimeUnit} {now : Date}
    {f : Date → NormalizedInboundResult} {P : Prop}
    (h : ∀ moment, (f moment).accepted zod = true ↔ hasFourDigitYear moment = true ∧ P) :
    Conforms zod ((toIsoTimestamp value unit now).map fun moment => [f moment]) ↔
      HasDate value unit now ∧ P := by
  simp only [conforms_map, List.mem_singleton, forall_eq, h, HasDate]
  constructor
  · rintro ⟨moment, hmoment, hyear, hP⟩
    exact ⟨⟨moment, hmoment, hyear⟩, hP⟩
  · rintro ⟨⟨moment, hmoment, hyear⟩, hP⟩
    exact ⟨moment, hmoment, hyear, hP⟩

theorem accepted_message {zod : Zod} {data : NormalizedInboundMessage} :
    (NormalizedInboundResult.message data).accepted zod = true ↔
      data.timestamp.accepted zod = true ∧ data.sender.accepted zod = true ∧
        data.recipient.accepted zod = true ∧ data.content.accepted zod = true := by
  simp only [NormalizedInboundResult.accepted, NormalizedInboundMessage.accepted, Bool.and_eq_true]
  tauto

/-- Without a URL of an avatar there is nothing to check. -/
theorem Participant.accepted_of_none {zod : Zod} {participant : Participant}
    (h : participant.avatarUrl = none) : participant.accepted zod = true := by
  rw [Participant.accepted, h]
  rfl

/-- The name is that of a status. -/
def IsStatus (name : String) : Prop := name ∈ STATUS_MAP.map Prod.fst

theorem not_inherited_of_isStatus {name : String} (h : IsStatus name) : name ∉ INHERITED := by
  have hall : ∀ name ∈ STATUS_MAP.map Prod.fst, name ∉ INHERITED := by decide
  exact hall name h

namespace WhatsApp

/-- The name of a status is none that every object has.  If the status is
tracked it has a date, and otherwise a text. -/
def SoundStatus (status : Record) (now : Date) : Prop :=
  let name := (asString (prop status "status")).getD ""
  name ∉ INHERITED ∧
    (IsStatus name → HasDate (prop status "timestamp") .seconds now) ∧
    (¬ IsStatus name → ∃ text, stringOf (prop status "status") = .ok text)

/-- What looks like the address of a shared contact is one. -/
def SoundContent (zod : Zod) (message : Record) : Prop :=
  asString (prop message "type") = some "contacts" →
    ∀ raw ∈ asArray (prop message "contacts"),
      ∀ email ∈ asArray (prop (asRecord (some raw)) "emails"),
        let value := (asString (prop (asRecord (some email)) "email")).getD ""
        looksLikeEmail value = true → zod.isEmail value = true

def SoundMessage (zod : Zod) (message : Record) (now : Date) : Prop :=
  truthy (asString (prop message "from")) ≠ none → truthy (asString (prop message "id")) ≠ none →
    HasDate (prop message "timestamp") .seconds now ∧ SoundContent zod message

def Sound (zod : Zod) (payload : Record) (now : Date) : Prop :=
  if isTruthy (prop payload "status") then SoundStatus (asRecord (prop payload "status")) now
  else SoundMessage zod (asRecord (prop payload "message")) now

section Conforms

variable {zod : Zod} {payload : Record} {context : NormalizeContext} {account : AdapterAccount}
  {now : Date}

theorem conforms_normalizeStatus :
    Conforms zod (normalizeStatus payload context now) ↔
      SoundStatus (asRecord (prop payload "status")) now := by
  simp only [normalizeStatus, SoundStatus]
  generalize asRecord (prop payload "status") = status
  generalize (asString (prop status "status")).getD "" = name
  by_cases htracked : IsStatus name
  · obtain ⟨value, hvalue⟩ := lookup_own htracked
    have hname : name ∉ INHERITED := not_inherited_of_isStatus htracked
    simp [hvalue, conforms_map, hname, htracked, NormalizedInboundResult.accepted,
      NormalizedDeliveryReceipt.accepted, statusReceipt, Looked.isOwn, Timestamp.accepted, HasDate]
  · by_cases hname : name ∈ INHERITED
    · simp [lookup_of_not_mem htracked, hname, conforms_map, NormalizedInboundResult.accepted,
        NormalizedDeliveryReceipt.accepted, statusReceipt, Looked.isOwn]
    · simp [lookup_of_not_mem htracked, hname, htracked, conforms_map,
        NormalizedInboundResult.accepted]

/-- The addresses that are kept are those that look like one. -/
theorem accepted_contactCards {message : Record} :
    (∀ card ∈ (asArray (prop message "contacts")).map contactCard,
      ∀ e ∈ card.emails, zod.isEmail e.value = true) ↔
        ∀ raw ∈ asArray (prop message "contacts"),
          ∀ email ∈ asArray (prop (asRecord (some raw)) "emails"),
            let value := (asString (prop (asRecord (some email)) "email")).getD ""
            looksLikeEmail value = true → zod.isEmail value = true := by
  rw [List.forall_mem_map]
  refine forall₂_congr fun raw _ => ?_
  simp only [contactCard, List.map_map]
  constructor
  · intro h email hemail hlooks
    exact h _ (List.mem_filter.mpr ⟨List.mem_map_of_mem hemail, hlooks⟩)
  · intro h e he
    obtain ⟨hmem, hlooks⟩ := List.mem_filter.mp he
    obtain ⟨email, hemail, rfl⟩ := List.mem_map.mp hmem
    exact h email hemail hlooks

/-- Of the contents only that of contacts can be refused. -/
theorem accepted_normalizeWhatsAppContent {message : Record} :
    (normalizeWhatsAppContent message).accepted zod = true ↔ SoundContent zod message := by
  have hcontacts : ((asString (prop message "type")).getD "unknown" = "contacts") ↔
      asString (prop message "type") = some "contacts" := getD_eq_iff (by decide)
  rw [SoundContent, ← hcontacts]
  unfold normalizeWhatsAppContent
  generalize (asString (prop message "type")).getD "unknown" = type
  by_cases htype : type = "contacts"
  · subst htype
    have hmedia : (MEDIA_TYPES.find? fun entry => entry.1 = "contacts") = none := by decide
    rw [← accepted_contactCards]
    by_cases hempty : (asArray (prop message "contacts")).map contactCard = []
    · simp [hmedia, hempty, unsupportedContent, InboundMessageContent.accepted, Looked.isOwn]
    · have hsome : asArray (prop message "contacts") ≠ [] := fun h => hempty (by rw [h]; rfl)
      simp [hmedia, hsome, InboundMessageContent.accepted]
  · simp only [htype, false_and, if_false, false_implies, iff_true]
    split
    next => rfl
    split
    next => rfl
    split
    next => rfl
    split
    next => rfl
    split
    next => rfl
    split <;> rfl

theorem conforms_normalizeMessage :
    Conforms zod (normalizeMessage payload context account now) ↔
      SoundMessage zod (asRecord (prop payload "message")) now := by
  simp only [normalizeMessage, SoundMessage]
  cases truthy (asString (prop (asRecord (prop payload "message")) "from")) with
  | none => simp [NormalizedInboundResult.accepted]
  | some sender =>
      cases truthy (asString (prop (asRecord (prop payload "message")) "id")) with
      | none => simp [NormalizedInboundResult.accepted]
      | some id =>
          have haccepted (moment : Date) : (NormalizedInboundResult.message (inboundMessage payload
              context account id sender moment)).accepted zod = true ↔
                hasFourDigitYear moment = true ∧
                  SoundContent zod (asRecord (prop payload "message")) := by
            rw [accepted_message, ← accepted_normalizeWhatsAppContent]
            exact ⟨fun h => ⟨h.1, h.2.2.2⟩, fun h => ⟨h.1, rfl, rfl, h.2⟩⟩
          simpa using conforms_dated haccepted

theorem conforms_iff :
    Conforms zod (normalizeInbound payload context account now) ↔ Sound zod payload now := by
  unfold normalizeInbound Sound
  split
  · exact conforms_normalizeStatus
  · exact conforms_normalizeMessage

end Conforms

end WhatsApp

namespace Messaging

/-- A coordinate is finite. -/
def HasNumber (value : Option Json) : Prop := ∃ q, coordinate value = .ok (.finite q)

/-- The type of the first attachment is none that every object has.  The file of
a medium has a URL, and a location has coordinates. -/
def SoundAttachment (zod : Zod) (first : Record) : Prop :=
  let type := (asString (prop first "type")).getD "unknown"
  let payload := asRecord (prop first "payload")
  type ∉ INHERITED ∧
    (type ∈ ATTACHMENT_MEDIA.map Prod.fst → ∀ url, truthy (asString (prop payload "url")) = some url →
      zod.isUrl url = true) ∧
    (type = "location" → HasNumber (prop (asRecord (prop payload "coordinates")) "lat") ∧
      HasNumber (prop (asRecord (prop payload "coordinates")) "long"))

def SoundMessage (zod : Zod) (message : Record) : Prop :=
  isTruthy (prop (asRecord (prop message "quick_reply")) "payload") = false →
    ∀ first, (asArray (prop message "attachments")).head? = some first →
      SoundAttachment zod (asRecord (some first))

/-- The year of an event with receipts has four digits.  A watermark that stands
for their ids is a moment. -/
def SoundReceipt (event : Record) (timestamp now : Date) : Prop :=
  let receipt := asRecord (orNullish (prop event "delivery") (prop event "read"))
  let mids := (asArray (prop receipt "mids")).filterMap fun m => truthy (asString (some m))
  let mid := truthy (asString (prop receipt "mid"))
  let watermark := truthy (asString (prop receipt "watermark"))
  (mids ≠ [] ∨ mid ≠ none ∨ watermark ≠ none → hasFourDigitYear timestamp = true) ∧
    (mids = [] → mid = none → ∀ value, watermark = some value →
      ∃ moment, toIsoTimestamp (some (.string value)) .milliseconds now = .ok moment)

/-- The avatar of a profile that is taken over has a URL. -/
def SoundProfile (zod : Zod) (profile : Option ContactProfile) : Prop :=
  ∀ url, truthy (profile.bind ContactProfile.avatarUrl) = some url → isHttp url = true →
    zod.isUrl url = true

/-- What an event with a sender says. -/
def SoundSaid (zod : Zod) (event : Record) (profile : Option ContactProfile) (timestamp : Date) :
    Prop :=
  if isTruthy (prop event "postback") || isTruthy (prop event "reaction") then
    hasFourDigitYear timestamp = true ∧ SoundProfile zod profile
  else
    truthy (asString (prop (asRecord (prop event "message")) "mid")) ≠ none →
      hasFourDigitYear timestamp = true ∧ SoundMessage zod (asRecord (prop event "message")) ∧
        SoundProfile zod profile

/-- The time of an event with a sender is a moment. -/
def Sound (zod : Zod) (event : Record) (profile : Option ContactProfile) (now : Date) : Prop :=
  truthy (senderId event) ≠ none →
    ∃ timestamp, toIsoTimestamp (prop event "timestamp") .milliseconds now = .ok timestamp ∧
      if isTruthy (prop event "delivery") || isTruthy (prop event "read") then
        SoundReceipt event timestamp now
      else SoundSaid zod event profile timestamp

section Conforms

variable {zod : Zod} {event : Record} {context : NormalizeContext} {account : AdapterAccount}
  {options : Options} {now : Date}

/-- A content that may be missing is accepted. -/
def Accepts (zod : Zod) (content : Except Thrown InboundMessageContent) : Prop :=
  ∃ c, content = .ok c ∧ c.accepted zod = true

/-- Names of media are no names that every object has. -/
theorem not_inherited_of_media {type : String} (h : type ∈ ATTACHMENT_MEDIA.map Prod.fst) :
    type ∉ INHERITED ∧ type ≠ "location" := by
  have hall : ∀ type ∈ ATTACHMENT_MEDIA.map Prod.fst, type ∉ INHERITED ∧ type ≠ "location" := by
    decide
  exact hall type h

/-- A label, or the text that stands for it. -/
theorem isOwn_label {type : String} (h : type ∉ INHERITED) (text : String) :
    ((lookup ATTACHMENT_LABELS type).getD (.own text)).isOwn = true := by
  by_cases hlabel : type ∈ ATTACHMENT_LABELS.map Prod.fst
  · obtain ⟨value, hvalue⟩ := lookup_own hlabel
    rw [hvalue]
    rfl
  · rw [lookup_of_not_mem hlabel, if_neg h]
    rfl

/-- A name that every object has is that of no medium and no label. -/
theorem lookup_inherited {type : String} (h : type ∈ INHERITED) :
    lookup ATTACHMENT_MEDIA type = some .inherited ∧
      lookup ATTACHMENT_LABELS type = some .inherited ∧ type ≠ "location" := by
  have hall : ∀ type ∈ INHERITED, lookup ATTACHMENT_MEDIA type = some .inherited ∧
      lookup ATTACHMENT_LABELS type = some .inherited ∧ type ≠ "location" := by decide
  exact hall type h

theorem accepts_location {lat long : Option Json} :
    Accepts zod (do
      let latitude ← coordinate lat
      let longitude ← coordinate long
      .ok (.location latitude longitude none none)) ↔ HasNumber lat ∧ HasNumber long := by
  unfold Accepts HasNumber
  cases coordinate lat with
  | error e => simp [bind, Except.bind]
  | ok latitude =>
      cases coordinate long with
      | error e => simp [bind, Except.bind]
      | ok longitude =>
          cases latitude <;> cases longitude <;>
            simp [bind, Except.bind, InboundMessageContent.accepted, Lib.Number.isFinite]

theorem accepts_attachmentContent {text : Option String} {first : Record} {count : Nat} :
    Accepts zod (attachmentContent text first count) ↔ SoundAttachment zod first := by
  simp only [attachmentContent, SoundAttachment]
  generalize asRecord (prop first "payload") = payload
  generalize (asString (prop first "type")).getD "unknown" = type
  by_cases hmedia : type ∈ ATTACHMENT_MEDIA.map Prod.fst
  · obtain ⟨value, hvalue⟩ := lookup_own hmedia
    obtain ⟨hname, hlocation⟩ := not_inherited_of_media hmedia
    cases truthy (asString (prop payload "url")) with
    | none =>
        simp [hvalue, hname, hlocation, Accepts, InboundMessageContent.accepted, isOwn_label hname]
    | some url =>
        simp [hvalue, hname, hlocation, hmedia, Accepts, InboundMessageContent.accepted,
          MediaContent.accepted, Looked.map, Looked.isOwn]
  · by_cases hname : type ∈ INHERITED
    · obtain ⟨hinherited, hlabel, hlocation⟩ := lookup_inherited hname
      cases truthy (asString (prop payload "url")) with
      | none =>
          simp [hinherited, hlabel, hname, hlocation, Accepts, InboundMessageContent.accepted,
            Looked.isOwn]
      | some url =>
          simp [hinherited, hname, Accepts, InboundMessageContent.accepted,
            MediaContent.accepted, Looked.map, Looked.isOwn]
    · have hnone : lookup ATTACHMENT_MEDIA type = none := by
        rw [lookup_of_not_mem hmedia, if_neg hname]
      by_cases hlocation : type = "location"
      · subst hlocation
        simp only [hnone, if_true, accepts_location, hname, hmedia, not_false_eq_true, true_and,
          false_implies, true_implies]
      · simp [hnone, hname, hmedia, hlocation, Accepts, InboundMessageContent.accepted,
          isOwn_label hname]

theorem accepts_normalizeMessagingContent {message : Record} :
    Accepts zod (normalizeMessagingContent message) ↔ SoundMessage zod message := by
  simp only [normalizeMessagingContent, SoundMessage]
  by_cases hquick : isTruthy (prop (asRecord (prop message "quick_reply")) "payload") = true
  · simp [hquick, Accepts, InboundMessageContent.accepted]
  · cases asArray (prop message "attachments") with
    | nil =>
        cases asString (prop message "text") with
        | none => simp [hquick, Accepts, InboundMessageContent.accepted, Looked.isOwn]
        | some text => simp [hquick, Accepts, InboundMessageContent.accepted]
    | cons first rest => simp [hquick, accepts_attachmentContent]

/-- The receipts of an event. -/
theorem conforms_receipts {sender : String} {timestamp : Date} :
    Conforms zod (receipts event context now sender timestamp) ↔ SoundReceipt event timestamp now := by
  simp only [receipts, SoundReceipt]
  generalize asRecord (orNullish (prop event "delivery") (prop event "read")) = receipt
  generalize (asArray (prop receipt "mids")).filterMap (fun m => truthy (asString (some m))) = mids
  have haccepted (id : String) (ids : List String) :
      (∀ r ∈ (id :: ids).map fun providerMessageId => NormalizedInboundResult.deliveryReceipt
        { context := context
          providerMessageId := providerMessageId
          recipientIdentifier := sender
          status := .own (if isTruthy (prop event "read") then DeliveryStatus.read else .delivered)
          timestamp := .iso timestamp }, r.accepted zod = true) ↔
        hasFourDigitYear timestamp = true := by
    rw [List.forall_mem_map]
    exact ⟨fun h => h id List.mem_cons_self, fun h _ _ => h⟩
  cases mids with
  | cons id ids =>
      simpa using haccepted id (ids ++ (truthy (asString (prop receipt "mid"))).toList)
  | nil =>
      cases truthy (asString (prop receipt "mid")) with
      | some id => simpa using haccepted id []
      | none =>
          cases truthy (asString (prop receipt "watermark")) with
          | none => simp
          | some watermark =>
              simp [conforms_map, NormalizedInboundResult.accepted,
                NormalizedDeliveryReceipt.accepted, Looked.isOwn, Timestamp.accepted, and_comm]

theorem accepted_avatar :
    ((truthy (options.profile.bind ContactProfile.avatarUrl)).filter isHttp).all zod.isUrl = true ↔
      SoundProfile zod options.profile := by
  unfold SoundProfile
  cases truthy (options.profile.bind ContactProfile.avatarUrl) with
  | none => simp
  | some url =>
      by_cases hhttp : isHttp url = true
      · simp [hhttp, Option.filter]
      · simp [hhttp, Option.filter]

theorem accepted_inboundMessage {sender : String} {timestamp : Date} {s : Said} :
    (NormalizedInboundResult.message (inboundMessage context account options sender timestamp
      s)).accepted zod = true ↔
        hasFourDigitYear timestamp = true ∧ s.content.accepted zod = true ∧
          SoundProfile zod options.profile := by
  rw [accepted_message, ← accepted_avatar]
  exact ⟨fun h => ⟨h.1, h.2.2.2, h.2.1⟩, fun h => ⟨h.1, h.2.2, rfl, h.2.1⟩⟩

/-- What an event says, as a message. -/
theorem conforms_said {sender : String} {timestamp : Date} :
    Conforms zod (do
      match ← said event sender with
      | none => .ok [.ignored "Message without ID."]
      | some s => .ok [.message (inboundMessage context account options sender timestamp s)]) ↔
        SoundSaid zod event options.profile timestamp := by
  unfold SoundSaid said
  by_cases hpostback : isTruthy (prop event "postback") = true
  · simp [hpostback, bind, Except.bind, accepted_inboundMessage, postbackSaid,
      InboundMessageContent.accepted]
  · by_cases hreaction : isTruthy (prop event "reaction") = true
    · simp [hpostback, hreaction, bind, Except.bind, accepted_inboundMessage, reactionSaid,
        InboundMessageContent.accepted]
    · simp only [hpostback, hreaction, messageSaid]
      cases truthy (asString (prop (asRecord (prop event "message")) "mid")) with
      | none => simp [bind, Except.bind, NormalizedInboundResult.accepted]
      | some mid =>
          simp only [← accepts_normalizeMessagingContent, Accepts]
          cases normalizeMessagingContent (asRecord (prop event "message")) with
          | error e => simp [bind, Except.bind, Except.map]
          | ok content => simp [bind, Except.bind, Except.map, accepted_inboundMessage]

theorem conforms_iff :
    Conforms zod (normalizeMessagingEvent event context account options now) ↔
      Sound zod event options.profile now := by
  unfold normalizeMessagingEvent Sound
  cases truthy (senderId event) with
  | none => simp [NormalizedInboundResult.accepted]
  | some sender =>
      cases toIsoTimestamp (prop event "timestamp") .milliseconds now with
      | error e => simp [bind, Except.bind]
      | ok timestamp =>
          simp only [ne_eq, reduceCtorEq, not_false_eq_true, true_implies, Except.ok.injEq,
            exists_eq_left']
          split
          · exact conforms_receipts
          · exact conforms_said

end Conforms

end Messaging

namespace Telegram

/-- The file a message is shown with. -/
def shownFile (message : Record) : Option Record :=
  match ofString? (prop message "text"), asArray (prop message "photo") with
  | some _, _ => none
  | none, photo :: photos => some (largestPhoto (photo :: photos))
  | none, [] => (fileKind message).map fun kind => asRecord (prop message kind.1)

/-- The size of the file is one. -/
def SoundContent (message : Record) : Prop :=
  ∀ file, shownFile message = some file → ∀ size, fileSize file = some size → isSize size = true

def SoundCallback (query : Record) (now : Date) : Prop :=
  truthy ((asString (prop (asRecord (prop (asRecord (prop query "message")) "chat")) "id")).or
    (asString (prop (asRecord (prop query "from")) "id"))) ≠ none →
      truthy (asString (prop query "id")) ≠ none → hasFourDigitYear now = true

def SoundMessage (message : Record) (now : Date) : Prop :=
  let chat := asRecord (prop message "chat")
  truthy (asString (prop chat "id")) ≠ none → truthy (asString (prop message "message_id")) ≠ none →
    asString (prop chat "type") = some "private" →
      HasDate (prop message "date") .seconds now ∧ SoundContent message

def Sound (payload : Record) (now : Date) : Prop :=
  if isTruthy (prop payload "callback_query") then
    SoundCallback (asRecord (prop payload "callback_query")) now
  else SoundMessage (asRecord (prop payload "message")) now

section Conforms

variable {zod : Zod} {payload : Record} {context : NormalizeContext} {account : AdapterAccount}
  {now : Date}

/-- A medium without a URL is refused for its size only. -/
theorem accepted_media (zod : Zod) (media : MediaContent) (htype : media.mediaType.isOwn = true)
    (hmime : media.mimeType.isOwn = true) (hurl : media.url = none) :
    (InboundMessageContent.media media).accepted zod = true ↔
      ∀ size, media.sizeBytes = some size → isSize size = true := by
  rw [InboundMessageContent.accepted, MediaContent.accepted, htype, hmime, hurl]
  cases media.sizeBytes with
  | none => simp
  | some size => simp

/-- Only the size of a file can be refused. -/
theorem accepted_normalizeTelegramContent (zod : Zod) (message : Record) :
    (normalizeTelegramContent message).accepted zod = true ↔ SoundContent message := by
  unfold normalizeTelegramContent SoundContent shownFile
  cases ofString? (prop message "text") with
  | some text => simp [InboundMessageContent.accepted]
  | none =>
      cases asArray (prop message "photo") with
      | cons photo photos =>
          have haccepted := accepted_media zod
            (photoContent (photo :: photos) (asString (prop message "caption"))) rfl rfl rfl
          simpa [photoContent] using haccepted
      | nil =>
          cases fileKind message with
          | some kind =>
              have haccepted := accepted_media zod
                (fileContent message (asString (prop message "caption")) kind) rfl rfl rfl
              simpa [fileContent] using haccepted
          | none =>
              simp only [Option.map_none, reduceCtorEq, false_implies, implies_true, iff_true]
              split
              · rfl
              · split
                · rfl
                · unfold unsupportedContent
                  split
                  · rfl
                  · rfl

theorem conforms_normalizeCallback :
    (∀ r ∈ normalizeCallback payload context account now, r.accepted zod = true) ↔
      SoundCallback (asRecord (prop payload "callback_query")) now := by
  simp only [normalizeCallback, SoundCallback]
  generalize asRecord (prop payload "callback_query") = query
  cases truthy ((asString (prop (asRecord (prop (asRecord (prop query "message")) "chat")) "id")).or
    (asString (prop (asRecord (prop query "from")) "id"))) with
  | none => simp [NormalizedInboundResult.accepted]
  | some chatId =>
      cases truthy (asString (prop query "id")) with
      | none => simp [NormalizedInboundResult.accepted]
      | some queryId =>
          simp [accepted_message, Timestamp.accepted, Participant.accepted_of_none, telegramSender,
            recipient, InboundMessageContent.accepted]

theorem conforms_normalizeMessage :
    Conforms zod (normalizeMessage payload context account now) ↔
      SoundMessage (asRecord (prop payload "message")) now := by
  simp only [normalizeMessage, SoundMessage]
  cases truthy (asString (prop (asRecord (prop (asRecord (prop payload "message")) "chat")) "id")) with
  | none => simp [NormalizedInboundResult.accepted]
  | some chatId =>
      cases truthy (asString (prop (asRecord (prop payload "message")) "message_id")) with
      | none => simp [NormalizedInboundResult.accepted]
      | some messageId =>
          have haccepted (moment : Date) : (NormalizedInboundResult.message (inboundMessage payload
              context account chatId messageId moment)).accepted zod = true ↔
                hasFourDigitYear moment = true ∧
                  SoundContent (asRecord (prop payload "message")) := by
            rw [accepted_message, ← accepted_normalizeTelegramContent zod]
            exact ⟨fun h => ⟨h.1, h.2.2.2⟩, fun h => ⟨h.1, rfl, rfl, h.2⟩⟩
          by_cases hprivate : asString (prop (asRecord (prop (asRecord (prop payload "message"))
            "chat")) "type") = some "private"
          · simpa [hprivate] using conforms_dated haccepted
          · simp [hprivate, NormalizedInboundResult.accepted]

theorem conforms_iff :
    Conforms zod (normalizeInbound payload context account now) ↔ Sound payload now := by
  unfold normalizeInbound Sound
  split
  · rw [conforms_ok]
    exact conforms_normalizeCallback
  · exact conforms_normalizeMessage

end Conforms

end Telegram

namespace Line

/-- The size of a file is one. -/
def SoundContent (message : Record) : Prop :=
  asString (prop message "type") = some "file" →
    ∀ size, asNumber (prop message "fileSize") = some size → isSize size = true

/-- The event is a message with an id, or the press of a button. -/
def IsSaid (payload : Record) : Prop :=
  asString (prop payload "type") = some "message" ∧
      truthy (asString (prop (asRecord (prop payload "message")) "id")) ≠ none ∨
    asString (prop payload "type") = some "postback"

/-- The event has a date, its file a size, and the avatar of the sender a URL. -/
def Sound (zod : Zod) (payload : Record) (profile : Option ContactProfile) (now : Date) : Prop :=
  let source := asRecord (prop payload "source")
  asString (prop source "type") = some "user" → truthy (asString (prop source "userId")) ≠ none →
    IsSaid payload →
      HasDate (prop payload "timestamp") .milliseconds now ∧
        (asString (prop payload "type") = some "message" →
          SoundContent (asRecord (prop payload "message"))) ∧
        ∀ url, truthy (profile.bind ContactProfile.avatarUrl) = some url → zod.isUrl url = true

section Conforms

variable {zod : Zod} {payload : Record} {context : NormalizeContext} {account : AdapterAccount}
  {profile : Option ContactProfile} {now : Date}

theorem accepted_normalizeLineContent {message : Record} :
    (normalizeLineContent message).accepted zod = true ↔ SoundContent message := by
  have hfile : ((asString (prop message "type")).getD "unknown" = "file") ↔
      asString (prop message "type") = some "file" := getD_eq_iff (by decide)
  rw [SoundContent, ← hfile]
  unfold normalizeLineContent
  generalize (asString (prop message "type")).getD "unknown" = type
  by_cases htype : type = "file"
  · subst htype
    have hmedia : (MEDIA_KINDS.find? fun kind => kind.1 = "file") = none := by decide
    have haccepted := Telegram.accepted_media zod (fileContent message) rfl rfl rfl
    simpa [hmedia, fileContent] using haccepted
  · simp only [htype, if_false, false_implies, iff_true]
    split
    next => rfl
    split
    next => rfl
    split
    next => rfl
    split <;> rfl

/-- A message needs its date, its content and the avatar of the sender. -/
theorem conforms_said {userId : String} {s : Said} :
    Conforms zod ((toIsoTimestamp (prop payload "timestamp") .milliseconds now).map fun timestamp =>
      [.message (inboundMessage context account profile userId timestamp s)]) ↔
        HasDate (prop payload "timestamp") .milliseconds now ∧ s.content.accepted zod = true ∧
          ∀ url, truthy (profile.bind ContactProfile.avatarUrl) = some url →
            zod.isUrl url = true := by
  refine conforms_dated fun moment => ?_
  have havatar : (inboundMessage context account profile userId moment s).sender.accepted zod = true ↔
      ∀ url, truthy (profile.bind ContactProfile.avatarUrl) = some url → zod.isUrl url = true := by
    simp only [Participant.accepted, inboundMessage]
    cases truthy (profile.bind ContactProfile.avatarUrl) with
    | none => simp
    | some url => simp
  rw [accepted_message, havatar]
  exact ⟨fun h => ⟨h.1, h.2.2.2, h.2.1⟩, fun h => ⟨h.1, h.2.2, rfl, h.2.1⟩⟩

theorem conforms_iff :
    Conforms zod (normalizeInbound payload context account profile now) ↔
      Sound zod payload profile now := by
  simp only [normalizeInbound, Sound, IsSaid]
  by_cases huser : asString (prop (asRecord (prop payload "source")) "type") = some "user"
  · cases truthy (asString (prop (asRecord (prop payload "source")) "userId")) with
    | none => simp [huser, NormalizedInboundResult.accepted]
    | some userId =>
        by_cases hmessage : asString (prop payload "type") = some "message"
        · cases hid : truthy (asString (prop (asRecord (prop payload "message")) "id")) with
          | none => simp [huser, said, hmessage, hid, NormalizedInboundResult.accepted]
          | some id =>
              simp [huser, said, hmessage, hid, conforms_said, accepted_normalizeLineContent]
        · by_cases hpostback : asString (prop payload "type") = some "postback"
          · simp [huser, said, hpostback, conforms_said, InboundMessageContent.accepted]
          · simp [huser, said, hmessage, hpostback, NormalizedInboundResult.accepted]
  · simp [huser, NormalizedInboundResult.accepted]

end Conforms

end Line

namespace CustomApi

/-- The time stamp that is passed on is a date, or the time at hand is one. -/
def SoundTimestamp (zod : Zod) (payload : Record) (now : Date) : Prop :=
  match asString (prop payload "timestamp") with
  | some text => zod.isDatetime text = true
  | none => hasFourDigitYear now = true

/-- A status has a name that not every object has.  If it is tracked, or the item
is a message, the item has a date. -/
def Sound (zod : Zod) (payload : Record) (now : Date) : Prop :=
  truthy (asString (prop payload "messageId")) ≠ none →
    if asString (prop payload "type") = some "status" then
      let name := (asString (prop payload "status")).getD ""
      name ∉ INHERITED ∧ (IsStatus name → SoundTimestamp zod payload now)
    else
      truthy (asString (prop (asRecord (prop payload "contact")) "id")) ≠ none →
        truthy (asString (prop payload "text")) ≠ none → SoundTimestamp zod payload now

section Conforms

variable {zod : Zod} {payload : Record} {context : NormalizeContext} {account : AdapterAccount}
  {now : Date}

theorem accepted_timestamp :
    (timestamp payload now).accepted zod = true ↔ SoundTimestamp zod payload now := by
  unfold timestamp SoundTimestamp
  cases asString (prop payload "timestamp") with
  | none => exact Iff.rfl
  | some text => exact Iff.rfl

theorem conforms_iff :
    (∀ r ∈ normalizeInbound payload context account now, r.accepted zod = true) ↔
      Sound zod payload now := by
  simp only [normalizeInbound, Sound]
  cases truthy (asString (prop payload "messageId")) with
  | none => simp [NormalizedInboundResult.accepted]
  | some messageId =>
      by_cases hstatus : asString (prop payload "type") = some "status"
      · generalize (asString (prop payload "status")).getD "" = name
        by_cases htracked : IsStatus name
        · obtain ⟨value, hvalue⟩ := lookup_own htracked
          have hname : name ∉ INHERITED := not_inherited_of_isStatus htracked
          simp [hstatus, hvalue, hname, htracked, NormalizedInboundResult.accepted,
            NormalizedDeliveryReceipt.accepted, statusReceipt, Looked.isOwn, accepted_timestamp]
        · by_cases hname : name ∈ INHERITED
          · simp [hstatus, lookup_of_not_mem htracked, hname, NormalizedInboundResult.accepted,
              NormalizedDeliveryReceipt.accepted, statusReceipt, Looked.isOwn]
          · simp [hstatus, lookup_of_not_mem htracked, hname, htracked,
              NormalizedInboundResult.accepted]
      · cases truthy (asString (prop (asRecord (prop payload "contact")) "id")) with
        | none => simp [hstatus, NormalizedInboundResult.accepted]
        | some contactId =>
            cases truthy (asString (prop payload "text")) with
            | none => simp [hstatus, NormalizedInboundResult.accepted]
            | some text =>
                simp [hstatus, accepted_message, inboundMessage, accepted_timestamp,
                  Participant.accepted, InboundMessageContent.accepted]

end Conforms

end CustomApi

namespace Webchat

/-- A complete message has a date, or the time at hand is one. -/
def Sound (zod : Zod) (payload : Record) (now : Date) : Prop :=
  truthy (asString (prop payload "visitorId")) ≠ none →
    truthy (asString (prop payload "clientMessageId")) ≠ none →
      truthy (asString (prop payload "text")) ≠ none →
        match asString (prop payload "sentAt") with
        | some text => zod.isDatetime text = true
        | none => hasFourDigitYear now = true

theorem conforms_iff {zod : Zod} {toUpperCase : String → String} {payload : Record}
    {context : NormalizeContext} {account : AdapterAccount} {now : Date} :
    (∀ r ∈ normalizeInbound toUpperCase payload context account now, r.accepted zod = true) ↔
      Sound zod payload now := by
  simp only [normalizeInbound, Sound]
  cases truthy (asString (prop payload "visitorId")) with
  | none => simp [NormalizedInboundResult.accepted]
  | some visitorId =>
      cases truthy (asString (prop payload "clientMessageId")) with
      | none => simp [NormalizedInboundResult.accepted]
      | some clientMessageId =>
          cases truthy (asString (prop payload "text")) with
          | none => simp [NormalizedInboundResult.accepted]
          | some text =>
              simp only [List.mem_singleton, forall_eq, accepted_message, inboundMessage, timestamp]
              cases asString (prop payload "sentAt") with
              | none => simp [Timestamp.accepted, Participant.accepted, InboundMessageContent.accepted]
              | some sentAt =>
                  simp [Timestamp.accepted, Participant.accepted, InboundMessageContent.accepted]

end Webchat

namespace Email

/-- An email that is not ignored was received at a moment whose year has four
digits. -/
def Sound (js : Runtime) (payload : Record) (account : AdapterAccount) (now : Date) : Prop :=
  ∀ address, senderAddress js payload = some address →
    address ≠ js.toLowerCase account.emailAddress →
      isAutomatic js payload = false →
        hasFourDigitYear (receivedTimestamp js now (asString (prop payload "date"))) = true

theorem conforms_iff {zod : Zod} {js : Runtime} {payload : Record}
    {context : NormalizeContext} {account : AdapterAccount} {now : Date} :
    (∀ r ∈ normalizeInbound js payload context account now, r.accepted zod = true) ↔
      Sound js payload account now := by
  simp only [normalizeInbound, Sound]
  cases senderAddress js payload with
  | none => simp [NormalizedInboundResult.accepted]
  | some address =>
      by_cases hown : address = js.toLowerCase account.emailAddress
      · simp [hown, NormalizedInboundResult.accepted]
      · by_cases hauto : isAutomatic js payload = true
        · simp [hown, hauto, NormalizedInboundResult.accepted]
        · simp [hown, hauto, accepted_message, inboundMessage, Timestamp.accepted,
            Participant.accepted, InboundMessageContent.accepted]

end Email

/-- What a payload needs, for each provider. -/
def Sound (zod : Zod) (around : Surroundings) (account : AdapterAccount)
    (provider : ChannelProviderType) (payload : Record) : Prop :=
  match provider with
  | .whatsappCloud => WhatsApp.Sound zod payload around.now
  | .metaMessenger => Messaging.Sound zod payload around.profile around.now
  | .metaInstagram => Messaging.Sound zod payload around.profile around.now
  | .telegramBot => Telegram.Sound payload around.now
  | .emailSmtpImap => Email.Sound around.js payload account around.now
  | .lineMessaging => Line.Sound zod payload around.profile around.now
  | .webchatEmbed => Webchat.Sound zod payload around.now
  | .customWebhook => CustomApi.Sound zod payload around.now

/-- An adapter keeps its contract on a payload if and only if the payload is
sound. -/
theorem conforms_iff_sound (zod : Zod) (around : Surroundings) (account : AdapterAccount)
    (context : NormalizeContext) (provider : ChannelProviderType) (payload : Record) :
    Conforms zod (normalizeInbound around account context provider payload) ↔
      Sound zod around account provider payload := by
  cases provider with
  | whatsappCloud => exact WhatsApp.conforms_iff
  | metaMessenger | metaInstagram => exact Messaging.conforms_iff
  | telegramBot => exact Telegram.conforms_iff
  | emailSmtpImap => exact conforms_ok.trans Email.conforms_iff
  | lineMessaging => exact Line.conforms_iff
  | webchatEmbed => exact conforms_ok.trans Webchat.conforms_iff
  | customWebhook => exact conforms_ok.trans CustomApi.conforms_iff

/-! ## A text that is no date -/

/-- The checks of a schema, as far as the item below needs them. -/
def exampleZod : Zod := ⟨fun text => text.endsWith "Z", fun _ => true, fun _ => true⟩

/-- A message of the Custom API. -/
def exampleItem : Record :=
  [("messageId", .string "m1"), ("contact", .object [("id", .string "c1")]), ("text", .string "Hi"),
    ("timestamp", .string "yesterday")]

/-- Its time stamp is passed on, and no schema accepts it. -/
theorem not_conforms : ¬ ∀ zod around account context provider payload,
    Conforms zod (normalizeInbound around account context provider payload) := by
  intro h
  obtain ⟨results, hresults, haccepted⟩ := h exampleZod exampleSurroundings ⟨"", "Support", ""⟩
    ⟨"workspace", "channel", "e1", "msg:m1"⟩ .customWebhook exampleItem
  change Except.ok (CustomApi.normalizeInbound exampleItem _ _ _) = _ at hresults
  cases hresults
  have hrefused := haccepted _ List.mem_cons_self
  revert hrefused
  decide +kernel

end Vynor.Adapters
