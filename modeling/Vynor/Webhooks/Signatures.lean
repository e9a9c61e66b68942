import Vynor.Adapters.CustomApi
import Vynor.Adapters.Hmac
import Vynor.Lib.JsonText
import Vynor.Lib.LiteralChars
import Vynor.Webhooks.Ingest

/-!
# Signatures of webhooks

`validateWebhook` of the adapters.  Meta and LINE sign the body of a request, the
Custom API signs its timestamp and its body with a point between them, and
Telegram sends a secret.

A timestamp may hold points and so may a body, and one signed text can be split
in several ways.  Where the timestamp is a number and the body an object, there
is one way (`customText_inj`): no number is written with a brace, and only space
stands before the brace of an object.

The Custom API is signed in both directions with one secret.  What VYNOR posts to
a customer's system is split in one way too, so it is not taken for a message of
the customer with events (`exists_of_validateCustom`).
-/

namespace Vynor.Webhooks

open Lib (Bytes Json Number numberText)
open Adapters.CustomApi (Outbound isSound_outbound)
open Adapters (Hmac Unforged hmacSha256Hex hmacSha256Base64 safeEqual safeEqual_iff toNumber)

/-! ## Requests -/

/-- The methods that the webhook endpoints serve. -/
inductive Method where
  | get
  | post
deriving DecidableEq, Repr

/-- `WebhookRequest`.  The names of headers are ASCII. -/
structure WebhookRequest where
  method : Method
  rawBody : Bytes
  headers : List (String × HeaderValue)
  query : List (String × HeaderValue)
deriving DecidableEq, Repr

/-- `Array.isArray(value) ? value[0] : value`. -/
def HeaderValue.first : HeaderValue → Option String
  | .one value => some value
  | .many values => values.head?

/-- `name.toLowerCase()`. -/
def lowerName (name : String) : List Char := name.toList.map Char.toLower

/-- `readHeader`. -/
def readHeader (headers : List (String × HeaderValue)) (name : String) : Option String :=
  (headers.find? fun h => lowerName h.1 = lowerName name).bind fun h => h.2.first

/-- `firstQueryValue`. -/
def firstQueryValue (query : List (String × HeaderValue)) (name : String) : Option String :=
  (Lib.OrderedMap.get? query name).bind HeaderValue.first

/-- The credentials and secrets that requests are checked with: the app secret of
Meta or the channel secret of LINE, and what the service generated. -/
structure ChannelSecrets where
  signingSecret : String
  webhookSecret : Option String
  verifyToken : Option String
deriving DecidableEq, Repr

/-- `WebhookValidationResult`. -/
inductive WebhookValidationResult where
  | valid (challengeResponse : Option String)
  | invalid (statusCode : Nat) (failureReason : String)
deriving DecidableEq, Repr

/-! ## The checks -/

/-- `CUSTOM_API_SIGNATURE_TOLERANCE_SECONDS`. -/
def CUSTOM_API_SIGNATURE_TOLERANCE_SECONDS : Nat := 300

/-- `answerMetaVerificationChallenge`. -/
def answerMetaVerificationChallenge (request : WebhookRequest) (verifyToken : Option String) :
    WebhookValidationResult :=
  let mode := firstQueryValue request.query "hub.mode"
  let token := firstQueryValue request.query "hub.verify_token"
  let challenge := firstQueryValue request.query "hub.challenge"
  if mode ≠ some "subscribe" || (truthy challenge).isNone then
    .invalid 400 "Not a verification request."
  else
    match truthy verifyToken, truthy token with
    | some verifyToken, some token =>
        if safeEqual token verifyToken then .valid challenge
        else .invalid 403 "Verify token does not match."
    | _, _ => .invalid 403 "Verify token does not match."

/-- The digest in a header that begins with `sha256=`. -/
def sha256Digest (header : Option String) : Option String :=
  header.bind fun header => (header.toList.dropPrefix? "sha256=".toList).map String.ofList

/-- `verifyMetaSignature`. -/
def verifyMetaSignature (hmac : Hmac) (request : WebhookRequest) (appSecret : String) :
    WebhookValidationResult :=
  match sha256Digest (readHeader request.headers "x-hub-signature-256") with
  | none => .invalid 401 "Missing webhook signature."
  | some digest =>
      if safeEqual digest (hmacSha256Hex hmac appSecret request.rawBody) then .valid none
      else .invalid 401 "Invalid webhook signature."

/-- `validateMetaWebhook`. -/
def validateMetaWebhook (hmac : Hmac) (request : WebhookRequest) (secrets : ChannelSecrets) :
    WebhookValidationResult :=
  match request.method with
  | .get => answerMetaVerificationChallenge request secrets.verifyToken
  | .post => verifyMetaSignature hmac request secrets.signingSecret

/-- `validateWebhook` of `TelegramBotAdapter`. -/
def validateTelegramWebhook (request : WebhookRequest) (secrets : ChannelSecrets) :
    WebhookValidationResult :=
  match request.method with
  | .get => .invalid 405 "Telegram only sends POST requests."
  | .post =>
      match truthy secrets.webhookSecret,
        truthy (readHeader request.headers "x-telegram-bot-api-secret-token") with
      | some expected, some header =>
          if safeEqual header expected then .valid none
          else .invalid 401 "Invalid webhook secret token."
      | _, _ => .invalid 401 "Invalid webhook secret token."

/-- `validateWebhook` of `LineMessagingAdapter`. -/
def validateLineWebhook (hmac : Hmac) (request : WebhookRequest) (secrets : ChannelSecrets) :
    WebhookValidationResult :=
  match request.method with
  | .get => .invalid 405 "LINE only sends POST requests."
  | .post =>
      match truthy (readHeader request.headers "x-line-signature") with
      | none => .invalid 401 "Invalid webhook signature."
      | some signature =>
          if safeEqual signature (hmacSha256Base64 hmac secrets.signingSecret request.rawBody) then
            .valid none
          else .invalid 401 "Invalid webhook signature."

/-- The text that `signCustomApiPayload` signs. -/
def customText (timestamp : String) (body : Bytes) : Bytes :=
  Lib.Utf8.encode (timestamp ++ ".") ++ body

/-- `signCustomApiPayload`. -/
def signCustomApiPayload (hmac : Hmac) (secret timestamp : String) (body : Bytes) : String :=
  "sha256=" ++ hmacSha256Hex hmac secret (customText timestamp body)

/-- `Math.abs(Date.now() / 1000 - Number(timestamp))`, where it is finite. -/
def age? (now : Date) (timestamp : String) : Option Rat :=
  match Number.round ((now : Rat) / 1000), toNumber timestamp with
  | .finite seconds, .finite sent =>
      match Number.round (seconds - sent) with
      | .finite difference => some |difference|
      | _ => none
  | _, _ => none

/-- The age is within the tolerance. -/
def isTimely (now : Date) (timestamp : String) : Bool :=
  (age? now timestamp).any fun age => age ≤ (CUSTOM_API_SIGNATURE_TOLERANCE_SECONDS : Rat)

/-- `validateWebhook` of `CustomApiAdapter`. -/
def validateCustomWebhook (hmac : Hmac) (now : Date) (request : WebhookRequest)
    (secrets : ChannelSecrets) : WebhookValidationResult :=
  match request.method with
  | .get => .invalid 405 "Send messages with POST."
  | .post =>
      match truthy secrets.webhookSecret, truthy (readHeader request.headers "x-vynor-timestamp"),
        truthy (readHeader request.headers "x-vynor-signature") with
      | some secret, some timestamp, some signature =>
          if !isTimely now timestamp then .invalid 401 "Request timestamp is too old or invalid."
          else if safeEqual signature
              (signCustomApiPayload hmac secret timestamp request.rawBody) then .valid none
          else .invalid 401 "Invalid webhook signature."
      | _, _, _ => .invalid 401 "Missing X-Vynor-Timestamp or X-Vynor-Signature header."

/-- `validateWebhook` of the adapter of a provider, where it has one. -/
def validateWebhook? (hmac : Hmac) (now : Date) (provider : ChannelProviderType)
    (request : WebhookRequest) (secrets : ChannelSecrets) : Option WebhookValidationResult :=
  match provider with
  | .whatsappCloud => some (validateMetaWebhook hmac request secrets)
  | .metaMessenger => some (validateMetaWebhook hmac request secrets)
  | .metaInstagram => some (validateMetaWebhook hmac request secrets)
  | .telegramBot => some (validateTelegramWebhook request secrets)
  | .lineMessaging => some (validateLineWebhook hmac request secrets)
  | .customWebhook => some (validateCustomWebhook hmac now request secrets)
  | .emailSmtpImap => none
  | .webchatEmbed => none

/-! ## Signed texts of the Custom API -/

/-- The body is the text of an object. -/
def IsObjectText (body : Bytes) : Prop :=
  ∃ members, Lib.Json.parse (Lib.Utf8.decode body) = some (.object members)

/-- An atom is no object. -/
theorem readAtom_ne_object {text rest : List Char} {members : Json.Members} :
    Lib.Json.readAtom text ≠ some (.object members, rest) := by
  intro h
  unfold Lib.Json.readAtom at h
  split at h
  · cases h
  · split at h
    · cases h
    · split at h
      · cases h
      · obtain ⟨n, _, heq⟩ := Option.map_eq_some_iff.mp h
        cases heq

/-- Only space stands before the brace of an object. -/
theorem exists_brace {text : String} {members : Json.Members}
    (h : Lib.Json.parse text = some (.object members)) :
    ∃ space rest, text.toList = space ++ '\x7b' :: rest ∧
      ∀ c ∈ space, Lib.Json.isJsonSpace c = true := by
  obtain ⟨⟨value, after⟩, hread, hvalue⟩ := Option.bind_eq_some_iff.mp h
  have hobject : value = .object members := by
    simp only at hvalue
    split at hvalue
    · exact Option.some.inj hvalue
    · cases hvalue
  subst hobject
  have hsplit := List.takeWhile_append_dropWhile (p := Lib.Json.isJsonSpace) (l := text.toList)
  rw [Lib.Json.readValue, Lib.Json.skipSpace] at hread
  cases hdrop : text.toList.dropWhile Lib.Json.isJsonSpace with
  | nil =>
      rw [hdrop] at hread
      cases hread
  | cons c rest =>
      rw [hdrop] at hread hsplit
      simp only at hread
      refine ⟨text.toList.takeWhile Lib.Json.isJsonSpace, rest, ?_,
        fun d hd => List.mem_takeWhile_imp hd⟩
      split at hread
      · obtain ⟨_, _, heq⟩ := Option.map_eq_some_iff.mp hread
        cases heq
      · split at hread
        · obtain ⟨_, _, heq⟩ := Option.map_eq_some_iff.mp hread
          cases heq
        · split at hread
          next hbrace => exact hbrace ▸ hsplit.symm
          next => exact absurd hread readAtom_ne_object

theorem mem_dropWhile {p : Char → Bool} {c : Char} (hp : p c = false) {cs : List Char}
    (hc : c ∈ cs) : c ∈ cs.dropWhile p := by
  induction cs with
  | nil => cases hc
  | cons d cs ih =>
      rw [List.dropWhile_cons]
      split
      next hd =>
        rcases List.mem_cons.mp hc with rfl | hc
        · rw [hp] at hd
          cases hd
        · exact ih hc
      next => exact hc

/-- A text with a brace is no number. -/
theorem not_mem_of_toNumber {text : String} {value : Rat} (h : toNumber text = .finite value) :
    '\x7b' ∉ text.toList := by
  intro hbrace
  have htrim : '\x7b' ∈ trimChars text.toList := by
    rw [trimChars, List.mem_reverse]
    refine mem_dropWhile (by decide) ?_
    rw [List.mem_reverse]
    exact mem_dropWhile (by decide) hbrace
  exact absurd (Lib.mem_ofLiteral h htrim) (by decide)

/-- Two splits of one text at a point, where no brace stands before the point and
only space before the brace after it. -/
theorem split_unique {before before' after after' : List Char}
    (h : before ++ '.' :: after = before' ++ '.' :: after') (hbefore' : '\x7b' ∉ before')
    (hafter : ∃ space rest, after = space ++ '\x7b' :: rest ∧
      ∀ c ∈ space, Lib.Json.isJsonSpace c = true) :
    before.length < before'.length → False := by
  intro hlength
  obtain ⟨space, rest, hspace, hall⟩ := hafter
  obtain ⟨extra, rfl, hextra⟩ : ∃ extra, before' = before ++ extra ∧
      '.' :: after = extra ++ '.' :: after' := by
    rcases List.append_eq_append_iff.mp h with ⟨extra, hb, ha⟩ | ⟨extra, hb, _⟩
    · exact ⟨extra, hb, ha⟩
    · rw [hb, List.length_append] at hlength
      omega
  cases extra with
  | nil =>
      rw [List.append_nil] at hlength
      exact absurd hlength (lt_irrefl _)
  | cons point extra =>
      rw [List.cons_append, List.cons.injEq] at hextra
      obtain ⟨rfl, hextra⟩ := hextra
      rw [hspace] at hextra
      -- the point of the other split is before the brace, where only space is
      have hpoint : '.' ∈ space := by
        rcases List.append_eq_append_iff.mp hextra with ⟨more, hb, ha⟩ | ⟨more, hb, ha⟩
        · cases more with
          | nil =>
              rw [List.nil_append, List.cons.injEq] at ha
              exact absurd ha.1 (by decide)
          | cons c more =>
              rw [List.cons_append, List.cons.injEq] at ha
              obtain ⟨rfl, _⟩ := ha
              refine absurd (List.mem_append_right _ (List.mem_cons_of_mem _ ?_)) hbefore'
              rw [hb]
              exact List.mem_append_right _ List.mem_cons_self
        · cases more with
          | nil =>
              rw [List.nil_append, List.cons.injEq] at ha
              exact absurd ha.1 (by decide)
          | cons c more =>
              rw [List.cons_append, List.cons.injEq] at ha
              obtain ⟨rfl, _⟩ := ha
              rw [hb]
              exact List.mem_append_right _ List.mem_cons_self
      exact absurd (hall _ hpoint) (by decide)

theorem decodeChars_append_encodeChars (cs : List Char) (bytes : Bytes) :
    Lib.Utf8.decodeChars none (Lib.Utf8.encodeChars cs ++ bytes) =
      cs ++ Lib.Utf8.decodeChars none bytes := by
  induction cs with
  | nil => rfl
  | cons c cs ih =>
      rw [Lib.Utf8.encodeChars] at ih ⊢
      rw [List.flatMap_cons, List.append_assoc, Lib.Utf8.decodeChars_utf8EncodeChar, ih,
        List.cons_append]

theorem toList_decode_customText (timestamp : String) (body : Bytes) :
    (Lib.Utf8.decode (customText timestamp body)).toList =
      timestamp.toList ++ '.' :: (Lib.Utf8.decode body).toList := by
  rw [customText, Lib.Utf8.decode, Lib.Utf8.encode, decodeChars_append_encodeChars,
    String.toList_ofList, String.toList_append, List.append_assoc, Lib.Utf8.decode,
    String.toList_ofList, String.toList_ofList]
  rfl

/-- A signed text tells its timestamp and its body. -/
theorem customText_inj {timestamp timestamp' : String} {body body' : Bytes}
    (h : customText timestamp body = customText timestamp' body')
    (hbrace : '\x7b' ∉ timestamp.toList) (hbrace' : '\x7b' ∉ timestamp'.toList)
    (hbody : IsObjectText body) (hbody' : IsObjectText body') :
    timestamp = timestamp' ∧ body = body' := by
  have hchars := congrArg (fun text => (Lib.Utf8.decode text).toList) h
  simp only [toList_decode_customText] at hchars
  obtain ⟨members, hparse⟩ := hbody
  obtain ⟨members', hparse'⟩ := hbody'
  have hlength : timestamp.toList.length = timestamp'.toList.length := by
    rcases Nat.lt_trichotomy timestamp.toList.length timestamp'.toList.length with hlt | heq | hgt
    · exact (split_unique hchars hbrace' (exists_brace hparse) hlt).elim
    · exact heq
    · exact (split_unique hchars.symm hbrace (exists_brace hparse') hgt).elim
  have htimestamp : timestamp = timestamp' :=
    String.toList_inj.mp (List.append_inj_left hchars hlength)
  subst htimestamp
  exact ⟨rfl, List.append_cancel_left h⟩

/-! ## What a valid request says -/

/-- A message that was signed under the scheme of the Custom API. -/
structure SignedMessage where
  secret : String
  timestamp : String
  body : Bytes
deriving DecidableEq, Repr

/-- The text that was signed. -/
def SignedMessage.text (m : SignedMessage) : Bytes := customText m.timestamp m.body

/-- The timestamp is a number and the body an object. -/
structure SignedMessage.Regular (m : SignedMessage) : Prop where
  timestamp : ∃ value, toNumber m.timestamp = .finite value
  body : IsObjectText m.body

/-- What VYNOR posts to the endpoint of a channel. -/
structure OwnPost where
  secret : String
  channelId : String
  postedAt : Date
  outbound : Outbound
deriving DecidableEq, Repr

/-- What `post` signs. -/
def OwnPost.message (p : OwnPost) : SignedMessage where
  secret := p.secret
  timestamp := numberText ((p.postedAt / 1000 : Int) : Rat)
  body := Lib.Utf8.encode (Json.stringify (p.outbound.body p.channelId))

/-- What was signed: bodies by Meta and LINE, messages by the customers, and the posts
of VYNOR with the secrets of the customers. -/
structure Ledger where
  bodies : List (String × Bytes)
  messages : List SignedMessage
  posts : List OwnPost

/-- A customer or VYNOR signed this message. -/
def Ledger.Signed (L : Ledger) (m : SignedMessage) : Prop :=
  m ∈ L.messages ∨ ∃ p ∈ L.posts, p.message = m

/-- Nobody made the signature of a request without the secret. -/
def SignatureUnforged (hmac : Hmac) (L : Ledger) (provider : ChannelProviderType)
    (secrets : ChannelSecrets) (request : WebhookRequest) : Prop :=
  let metaUnforged := ∀ digest,
    sha256Digest (readHeader request.headers "x-hub-signature-256") = some digest →
      Unforged (hmacSha256Hex hmac secrets.signingSecret)
        (fun body => (secrets.signingSecret, body) ∈ L.bodies) request.rawBody digest
  match provider with
  | .whatsappCloud => metaUnforged
  | .metaMessenger => metaUnforged
  | .metaInstagram => metaUnforged
  | .lineMessaging => ∀ signature,
      readHeader request.headers "x-line-signature" = some signature →
        Unforged (hmacSha256Base64 hmac secrets.signingSecret)
          (fun body => (secrets.signingSecret, body) ∈ L.bodies) request.rawBody signature
  | .customWebhook => ∀ secret timestamp signature, secrets.webhookSecret = some secret →
      readHeader request.headers "x-vynor-timestamp" = some timestamp →
        readHeader request.headers "x-vynor-signature" = some signature →
          Unforged (fun text => "sha256=" ++ hmacSha256Hex hmac secret text)
            (fun text => ∃ m, L.Signed m ∧ m.secret = secret ∧ m.text = text)
            (customText timestamp request.rawBody) signature
  | _ => True

/-- The customer signed the timestamp and the body of the request, not long ago.  A
message whose timestamp is a number and whose body is an object was signed as it is;
another one may have been split in another way. -/
def CustomerSigned (L : Ledger) (secrets : ChannelSecrets) (now : Date)
    (request : WebhookRequest) : Prop :=
  ∃ timestamp, readHeader request.headers "x-vynor-timestamp" = some timestamp ∧
    isTimely now timestamp = true ∧
      ∃ m ∈ L.messages, secrets.webhookSecret = some m.secret ∧
        m.text = customText timestamp request.rawBody ∧
          (m.Regular → m.timestamp = timestamp ∧ m.body = request.rawBody)

/-- The request comes from who has the secret: its body was signed, not long ago
where a timestamp is signed with it, or it came with the secret itself. -/
def Authentic (L : Ledger) (provider : ChannelProviderType) (secrets : ChannelSecrets) (now : Date)
    (request : WebhookRequest) : Prop :=
  let signedBody := (secrets.signingSecret, request.rawBody) ∈ L.bodies
  match provider with
  | .whatsappCloud => signedBody
  | .metaMessenger => signedBody
  | .metaInstagram => signedBody
  | .lineMessaging => signedBody
  | .customWebhook => CustomerSigned L secrets now request
  | .telegramBot => ∃ secret, secret ≠ "" ∧ secrets.webhookSecret = some secret ∧
      readHeader request.headers "x-telegram-bot-api-secret-token" = some secret
  | .emailSmtpImap => False
  | .webchatEmbed => False

/-- A timestamp that VYNOR signs has no brace. -/
theorem not_mem_ownPost_timestamp (p : OwnPost) : '\x7b' ∉ p.message.timestamp.toList := by
  have htimestamp : p.message.timestamp = numberText ((p.postedAt / 1000 : Int) : Rat) := rfl
  intro hbrace
  rw [htimestamp] at hbrace
  exact absurd (Lib.mem_numberText hbrace) (by decide)

theorem parse_ownPost_body (p : OwnPost) :
    Lib.Json.parse (Lib.Utf8.decode p.message.body) = some (p.outbound.body p.channelId) := by
  change Lib.Json.parse (Lib.Utf8.decode (Lib.Utf8.encode
    (Json.stringify (p.outbound.body p.channelId)))) = _
  rw [Lib.Utf8.decode_encode, Json.parse_stringify (isSound_outbound p.channelId p.outbound)]

theorem isObjectText_ownPost (p : OwnPost) : IsObjectText p.message.body := by
  have hparse := parse_ownPost_body p
  cases houtbound : p.outbound with
  | message intentId destination text createdAt conversationId =>
      rw [houtbound] at hparse
      exact ⟨_, hparse⟩
  | ping sentAt =>
      rw [houtbound] at hparse
      exact ⟨_, hparse⟩

section Authentic

variable {hmac : Hmac} {L : Ledger} {secrets : ChannelSecrets} {request : WebhookRequest}
  {now : Date} {challenge : Option String}

/-- A body with the signature of Meta. -/
theorem mem_of_validateMeta (hpost : request.method = .post)
    (hvalid : validateMetaWebhook hmac request secrets = .valid challenge)
    (hunforged : ∀ digest,
      sha256Digest (readHeader request.headers "x-hub-signature-256") = some digest →
        Unforged (hmacSha256Hex hmac secrets.signingSecret)
          (fun body => (secrets.signingSecret, body) ∈ L.bodies) request.rawBody digest) :
    (secrets.signingSecret, request.rawBody) ∈ L.bodies := by
  rw [validateMetaWebhook, hpost] at hvalid
  simp only [verifyMetaSignature] at hvalid
  split at hvalid
  next => cases hvalid
  next digest hdigest =>
    split at hvalid
    next hequal => exact hunforged digest hdigest (safeEqual_iff.mp hequal).symm
    next => cases hvalid

theorem mem_of_validateLine (hpost : request.method = .post)
    (hvalid : validateLineWebhook hmac request secrets = .valid challenge)
    (hunforged : ∀ signature,
      readHeader request.headers "x-line-signature" = some signature →
        Unforged (hmacSha256Base64 hmac secrets.signingSecret)
          (fun body => (secrets.signingSecret, body) ∈ L.bodies) request.rawBody signature) :
    (secrets.signingSecret, request.rawBody) ∈ L.bodies := by
  rw [validateLineWebhook, hpost] at hvalid
  simp only at hvalid
  split at hvalid
  next => cases hvalid
  next signature hsignature =>
    split at hvalid
    next hequal =>
      exact hunforged signature (truthy_eq_some.mp hsignature).1 (safeEqual_iff.mp hequal).symm
    next => cases hvalid

theorem exists_of_validateTelegram (hpost : request.method = .post)
    (hvalid : validateTelegramWebhook request secrets = .valid challenge) :
    ∃ secret, secret ≠ "" ∧ secrets.webhookSecret = some secret ∧
      readHeader request.headers "x-telegram-bot-api-secret-token" = some secret := by
  rw [validateTelegramWebhook, hpost] at hvalid
  simp only at hvalid
  split at hvalid
  next expected header hexpected hheader =>
    split at hvalid
    next hequal =>
      obtain ⟨hexpected, hne⟩ := truthy_eq_some.mp hexpected
      obtain ⟨hheader, _⟩ := truthy_eq_some.mp hheader
      rw [safeEqual_iff.mp hequal] at hheader
      exact ⟨expected, hne, hexpected, hheader⟩
    next => cases hvalid
  next => cases hvalid

/-- A timestamp that is not too old is a number. -/
theorem not_mem_of_isTimely {timestamp : String} (h : isTimely now timestamp = true) :
    '\x7b' ∉ timestamp.toList := by
  rw [isTimely, Option.any_eq_true] at h
  obtain ⟨age, hage, _⟩ := h
  unfold age? at hage
  split at hage
  next _ _ hread => exact not_mem_of_toNumber hread
  next => cases hage

/-- A valid request of the Custom API with an object that VYNOR did not post. -/
theorem exists_of_validateCustom (hpost : request.method = .post)
    (hvalid : validateCustomWebhook hmac now request secrets = .valid challenge)
    (hbody : IsObjectText request.rawBody)
    (hforeign : ∀ p ∈ L.posts, p.message.body ≠ request.rawBody)
    (hunforged : SignatureUnforged hmac L .customWebhook secrets request) :
    CustomerSigned L secrets now request := by
  rw [validateCustomWebhook, hpost] at hvalid
  simp only at hvalid
  split at hvalid
  next secret timestamp signature hsecret htimestamp hsignature =>
    split at hvalid
    next => cases hvalid
    next htimely =>
      rw [Bool.not_eq_true', Bool.not_eq_false] at htimely
      split at hvalid
      next hequal =>
        obtain ⟨hsecret, _⟩ := truthy_eq_some.mp hsecret
        obtain ⟨htimestamp, _⟩ := truthy_eq_some.mp htimestamp
        obtain ⟨hsignature, _⟩ := truthy_eq_some.mp hsignature
        have hplain := not_mem_of_isTimely htimely
        obtain ⟨m, hm, rfl, htext⟩ := hunforged secret timestamp signature hsecret htimestamp
          hsignature (safeEqual_iff.mp hequal).symm
        rcases hm with hm | ⟨p, hp, rfl⟩
        · refine ⟨timestamp, htimestamp, htimely, m, hm, hsecret, htext, fun hregular => ?_⟩
          obtain ⟨value, hvalue⟩ := hregular.timestamp
          exact customText_inj htext (not_mem_of_toNumber hvalue) hplain hregular.body hbody
        · -- a post of VYNOR has one split, and is not this body
          obtain ⟨_, hsame⟩ := customText_inj htext (not_mem_ownPost_timestamp p) hplain
            (isObjectText_ownPost p) hbody
          exact absurd hsame (hforeign p hp)
      next => cases hvalid
  next => cases hvalid

/-- A request that is valid and was not forged is authentic. -/
theorem authentic_of_valid {provider : ChannelProviderType} (hpost : request.method = .post)
    (hvalid : validateWebhook? hmac now provider request secrets = some (.valid challenge))
    (hbody : provider = .customWebhook →
      IsObjectText request.rawBody ∧ ∀ p ∈ L.posts, p.message.body ≠ request.rawBody)
    (hunforged : SignatureUnforged hmac L provider secrets request) :
    Authentic L provider secrets now request := by
  cases provider with
  | whatsappCloud => exact mem_of_validateMeta hpost (Option.some.inj hvalid) hunforged
  | metaMessenger => exact mem_of_validateMeta hpost (Option.some.inj hvalid) hunforged
  | metaInstagram => exact mem_of_validateMeta hpost (Option.some.inj hvalid) hunforged
  | telegramBot => exact exists_of_validateTelegram hpost (Option.some.inj hvalid)
  | lineMessaging => exact mem_of_validateLine hpost (Option.some.inj hvalid) hunforged
  | customWebhook =>
      obtain ⟨hobject, hforeign⟩ := hbody rfl
      exact exists_of_validateCustom hpost (Option.some.inj hvalid) hobject hforeign hunforged
  | emailSmtpImap => cases hvalid
  | webchatEmbed => cases hvalid

/-- What was signed stays signed. -/
theorem Authentic.mono {L' : Ledger} {provider : ChannelProviderType}
    (h : Authentic L provider secrets now request) (hbodies : ∀ p ∈ L.bodies, p ∈ L'.bodies)
    (hmessages : ∀ m ∈ L.messages, m ∈ L'.messages) :
    Authentic L' provider secrets now request := by
  cases provider with
  | whatsappCloud => exact hbodies _ h
  | metaMessenger => exact hbodies _ h
  | metaInstagram => exact hbodies _ h
  | telegramBot => exact h
  | lineMessaging => exact hbodies _ h
  | customWebhook =>
      obtain ⟨timestamp, htimestamp, htimely, m, hm, hrest⟩ := h
      exact ⟨timestamp, htimestamp, htimely, m, hmessages m hm, hrest⟩
  | emailSmtpImap => exact h
  | webchatEmbed => exact h

end Authentic

end Vynor.Webhooks
