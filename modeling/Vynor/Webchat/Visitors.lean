import Vynor.Adapters.Hmac
import Vynor.Adapters.Keys
import Vynor.Idempotency.Interceptor
import Vynor.Journal.Batch
import Vynor.Lib.IsoDate
import Vynor.Webchat.Polling
import Vynor.Webhooks.Routing

/-!
# Visitors of the chat widget

The public endpoints of a widget know a visitor by an id and a token.  `session`
draws the id and tags it with the channel, and `postMessage` and `messages` take
the id with its token.  The tagged text is the channel id and the visitor id with
a colon between them.

Any number of pages talk to any number of widgets, with ids and tokens of their
choice and with the same message sent again.  What is journaled then comes from
visitors that `session` made up for this channel, each message once
(`widget_journals_once`), and what is read is the conversation of the visitor who
asks (`widget_reads_own`).
-/

namespace Vynor.Webchat

open Lib (Bytes Machine Table)
open Adapters (Hmac HasNoColon Unforged safeEqual safeEqual_iff compact)
open Adapters.Webchat (WebchatMessageRequest WebchatVisitorMessage isVisitorId isClientMessageId
  isIdChar messageKey)
open Conversations (Db)
open Idempotency (ApiError)
open Journal (JournalEventInput JournalProviderEventsParams ProviderEvent Tables HasEvent
  journalProviderEventsInTransaction)
open Lib.IsoDate (toISOString)
open Webhooks (Account findByKey providerName)

/-! ## The service -/

/-- `WebchatSessionRequest`. -/
structure WebchatSessionRequest where
  visitorId : Option String
  visitorToken : Option String
deriving DecidableEq, Repr

/-- What `session` returns. -/
structure Session where
  visitorId : String
  visitorToken : String
deriving DecidableEq, Repr

def chatUnavailable : ApiError where
  statusCode := 503
  code := "SERVICE_UNAVAILABLE"
  message := "Chat is temporarily unavailable. Please try again shortly."

def widgetNotFound : ApiError where
  statusCode := 404
  code := "WIDGET_NOT_FOUND"
  message := "This chat widget is not available."

def visitorTokenInvalid : ApiError where
  statusCode := 401
  code := "VISITOR_TOKEN_INVALID"
  message := "Chat session expired. Reload the page to start again."

def encryptionNotConfigured : ApiError where
  statusCode := 503
  code := "CREDENTIAL_ENCRYPTION_NOT_CONFIGURED"
  message :=
    "Channel credentials cannot be stored because ENCRYPTION_MASTER_KEY is not set on the API. " ++
      "Generate one with \"openssl rand -base64 32\" and restart the API and worker."

def sessionsLimited : ApiError where
  statusCode := 429
  code := "RATE_LIMITED"
  message := "Too many chat sessions. Try again in a minute."

def messagesLimited : ApiError where
  statusCode := 429
  code := "RATE_LIMITED"
  message := "You are sending messages too quickly. Please wait a moment."

/-- The text that is tagged. -/
def Visitor.text (v : Visitor) : Bytes := Lib.Utf8.encode (v.channelId ++ ":" ++ v.visitorId)

/-- The id of a fresh visitor. -/
def freshVisitorId (random : Bytes) : String := "v_" ++ Lib.Bytes.toBase64Url random

/-- What a message is journaled with. -/
def journalInput (request : WebchatMessageRequest) (sentAt : Date) : JournalEventInput where
  providerEventKey := "msg:" ++ request.visitorId ++ ":" ++ request.clientMessageId
  isFingerprinted := false
  payload := compact
    [("visitorId", some request.visitorId), ("visitorName", truthy request.name),
      ("visitorEmail", truthy request.email), ("clientMessageId", some request.clientMessageId),
      ("text", some request.text), ("sentAt", some (toISOString sentAt)),
      ("pageUrl", truthy request.pageUrl)]

/-- What `withinLimit` makes of the answer of the counters, if there is one. -/
def withinLimit (limited : ApiError) : Option Bool → Except ApiError Unit
  | none => .error chatUnavailable
  | some true => .ok ()
  | some false => .error limited

/-- `findChannel`. -/
def findChannel (accounts : List Account) (widgetKey : String) : Except ApiError Account :=
  match findByKey accounts .webchatEmbed widgetKey with
  | some channel => .ok channel
  | none => .error widgetNotFound

/-- `WebchatService`. -/
structure WebchatService where
  /-- The derived key, where encryption is configured. -/
  key : Option Bytes
  hmac : Hmac

namespace WebchatService

variable (S : WebchatService)

def tag (key text : Bytes) : String := Adapters.hmacBase64Url S.hmac key text

/-- `visitorToken`. -/
def visitorToken (v : Visitor) : Except ApiError String :=
  match S.key with
  | none => .error encryptionNotConfigured
  | some key => .ok (S.tag key v.text)

/-- `assertVisitor`. -/
def assertVisitor (v : Visitor) (token : Option String) : Except ApiError Unit :=
  match truthy token with
  | none => .error visitorTokenInvalid
  | some token => do
      let expected ← S.visitorToken v
      if safeEqual token expected then .ok () else .error visitorTokenInvalid

/-- The identity that a page brings along, where it is one. -/
def recognizes (channelId : Id) (request : WebchatSessionRequest) : Option Session :=
  match truthy request.visitorId, truthy request.visitorToken with
  | some visitorId, some token =>
      match S.assertVisitor ⟨channelId, visitorId⟩ (some token) with
      | .ok _ => some ⟨visitorId, token⟩
      | .error _ => none
  | _, _ => none

/-- `session`. -/
def session (accounts : List Account) (widgetKey : String) (request : WebchatSessionRequest)
    (hit : Option Bool) (random : Bytes) : Except ApiError Session := do
  withinLimit sessionsLimited hit
  let channel ← findChannel accounts widgetKey
  match S.recognizes channel.id request with
  | some known => .ok known
  | none =>
      let token ← S.visitorToken ⟨channel.id, freshVisitorId random⟩
      .ok ⟨freshVisitorId random, token⟩

/-- `postMessage` up to the journal. -/
def postMessage (accounts : List Account) (widgetKey : String) (request : WebchatMessageRequest)
    (token : Option String) (hit : Option Bool) (now : Date) (correlationId : String) :
    Except ApiError JournalProviderEventsParams := do
  withinLimit messagesLimited hit
  let channel ← findChannel accounts widgetKey
  S.assertVisitor ⟨channel.id, request.visitorId⟩ token
  .ok
    { workspaceId := channel.workspaceId
      providerAccountId := channel.id
      provider := providerName channel.provider
      channelType := .webchat
      correlationId := correlationId
      events := [journalInput request now] }

/-- `messages` up to the page: the visitor whose messages are read. -/
def messages (accounts : List Account) (widgetKey visitorId : String) (token : Option String) :
    Except ApiError Visitor := do
  let channel ← findChannel accounts widgetKey
  S.assertVisitor ⟨channel.id, visitorId⟩ token
  .ok ⟨channel.id, visitorId⟩

end WebchatService

/-- A page of messages that can be read for a visitor. -/
def IsPage (db : Db) (v : Visitor) (since : Option Date) (rows : List Message) : Prop :=
  match v.identityId db with
  | none => rows = []
  | some identityId =>
      db.messages.Selects (Delivery.visible (directory db) identityId since)
        (fun a b => a.createdAt ≤ b.createdAt) PAGE_SIZE rows

/-! ## Runs -/

/-- A message that was accepted. -/
structure Post where
  channelId : Id
  request : WebchatMessageRequest

def Post.visitor (p : Post) : Visitor := ⟨p.channelId, p.request.visitorId⟩

/-- The channels and the journal, with the visitors that were made up and the
messages that were accepted. -/
structure Site where
  accounts : List Account
  journal : Tables
  issued : List Visitor
  accepted : List Post

/-- No channel yet. -/
def Site.empty : Site := ⟨[], ⟨.empty, .empty⟩, [], []⟩

inductive Request where
  /-- A channel is created, changed or deleted.  Its id is one the database makes
  up. -/
  | write (account : Account) (hid : HasNoColon account.id)
  | session (widgetKey : String) (request : WebchatSessionRequest) (hit : Option Bool)
      (random : Bytes)
  | post (widgetKey : String) (request : WebchatMessageRequest) (token : Option String)
      (hit : Option Bool) (now : Date) (correlationId : String) (eventIds outboxIds : Nat → Id)

/-- The visitor that a session makes up. -/
def WebchatService.fresh (S : WebchatService) (accounts : List Account) (widgetKey : String)
    (request : WebchatSessionRequest) (hit : Option Bool) (random : Bytes) : Option Visitor :=
  match findChannel accounts widgetKey, S.session accounts widgetKey request hit random with
  | .ok channel, .ok _ =>
      if (S.recognizes channel.id request).isSome then none
      else some ⟨channel.id, freshVisitorId random⟩
  | _, _ => none

/-- One request. -/
def serve (S : WebchatService) (w : Site) : Request → Option Site
  | .write account _ =>
      some { w with accounts := account :: w.accounts.filter fun a => a.id ≠ account.id }
  | .session widgetKey request hit random =>
      -- `randomBytes(12)`
      if random.length = 12 then
        some { w with
          issued := (S.fresh w.accounts widgetKey request hit random).toList ++ w.issued }
      else none
  | .post widgetKey request token hit now correlationId eventIds outboxIds =>
      match S.postMessage w.accounts widgetKey request token hit now correlationId with
      | .error _ => some w
      | .ok params =>
          (journalProviderEventsInTransaction w.journal params now eventIds outboxIds).map fun t =>
            { w with
              journal := t.1
              accepted := ⟨params.providerAccountId, request⟩ :: w.accepted }

def site (S : WebchatService) : Machine Site Request := { step := serve S }

/-- Nobody made a token for this visitor of the widget without the key. -/
def TokenUnforged (S : WebchatService) (w : Site) (widgetKey visitorId : String)
    (token : Option String) : Prop :=
  ∀ channel key presented, findChannel w.accounts widgetKey = .ok channel → S.key = some key →
    token = some presented →
      Unforged (S.tag key) (fun text => ∃ v ∈ w.issued, text = v.text)
        (Visitor.text ⟨channel.id, visitorId⟩) presented

/-- The tokens that messages come with are not forged. -/
def Honest (S : WebchatService) (w : Site) (a : Request) (_ : Site) : Prop :=
  match a with
  | .post widgetKey request token _ _ _ _ _ => TokenUnforged S w widgetKey request.visitorId token
  | _ => True

/-! ## Ids and tokens -/

variable {S : WebchatService}

theorem isIdChar_urlChar :
    ∀ n < 64, isIdChar (Lib.Bytes.urlChar (Lib.Bytes.base64Digit n)) = true := by
  decide

/-- The id of a fresh visitor is one that the endpoints accept. -/
theorem isVisitorId_fresh {random : Bytes} (h : random.length = 12) :
    isVisitorId (freshVisitorId random) = true := by
  obtain ⟨digits, hdigits, hlength, htext⟩ : ∃ digits : List Nat, (∀ n ∈ digits, n < 64) ∧
      digits.length = 16 ∧ Lib.Bytes.base64Chars random = digits.map Lib.Bytes.base64Digit := by
    match random, h with
    | [a, b, c, d, e, f, g, h, i, j, k, l], _ =>
        refine ⟨Lib.Bytes.sextets a b c ++ Lib.Bytes.sextets d e f ++ Lib.Bytes.sextets g h i ++
          Lib.Bytes.sextets j k l, ?_, rfl, rfl⟩
        intro n hn
        simp only [List.mem_append] at hn
        rcases hn with ((hn | hn) | hn) | hn
        · exact Lib.Bytes.lt_of_mem_sextets hn
        · exact Lib.Bytes.lt_of_mem_sextets hn
        · exact Lib.Bytes.lt_of_mem_sextets hn
        · exact Lib.Bytes.lt_of_mem_sextets hn
  have hlist : (freshVisitorId random).toList =
      'v' :: '_' :: (digits.map Lib.Bytes.base64Digit).map Lib.Bytes.urlChar := by
    rw [freshVisitorId, String.toList_append, Lib.Bytes.toBase64Url, String.toList_ofList, htext,
      Lib.Bytes.filter_digits hdigits, String.toList_ofList]
    rfl
  rw [isVisitorId, hlist]
  simp only [List.length_map, hlength, List.all_map, Bool.and_eq_true, decide_eq_true_eq]
  exact ⟨by decide, List.all_eq_true.mpr fun n hn => isIdChar_urlChar n (hdigits n hn)⟩

theorem hasNoColon_of_isVisitorId {id : String} (h : isVisitorId id = true) : HasNoColon id := by
  intro hcolon
  unfold isVisitorId at h
  split at h
  next rest hlist =>
    simp only [Bool.and_eq_true] at h
    rw [hlist] at hcolon
    simp only [List.mem_cons, show (':' : Char) ≠ 'v' by decide, show (':' : Char) ≠ '_' by decide,
      false_or] at hcolon
    have hchar := List.all_eq_true.mp h.2 ':' hcolon
    exact absurd hchar (by decide)
  next => cases h

/-- The tagged text tells the channel and the visitor. -/
theorem Visitor.text_inj {v v' : Visitor} (hv : HasNoColon v.channelId)
    (hv' : HasNoColon v'.channelId) (h : v.text = v'.text) : v = v' := by
  have htext : v.channelId ++ ":" ++ v.visitorId = v'.channelId ++ ":" ++ v'.visitorId := by
    have hdecoded := congrArg Lib.Utf8.decode h
    rwa [Visitor.text, Visitor.text, Lib.Utf8.decode_encode, Lib.Utf8.decode_encode] at hdecoded
  obtain ⟨hchannel, hvisitor⟩ := Adapters.joined_inj_first hv hv' htext
  cases v
  cases v'
  cases hchannel
  cases hvisitor
  rfl

/-- A token is accepted when it is the tag of the visitor. -/
theorem assertVisitor_eq_ok {v : Visitor} {token : Option String} :
    S.assertVisitor v token = .ok () ↔
      ∃ key, S.key = some key ∧ token = some (S.tag key v.text) ∧ S.tag key v.text ≠ "" := by
  constructor
  · intro h
    unfold WebchatService.assertVisitor at h
    split at h
    next => cases h
    next presented hpresented =>
      obtain ⟨htoken, hne⟩ := truthy_eq_some.mp hpresented
      cases hkey : S.key with
      | none =>
          rw [WebchatService.visitorToken, hkey] at h
          cases h
      | some key =>
          have hexpected : S.visitorToken v = .ok (S.tag key v.text) := by
            rw [WebchatService.visitorToken, hkey]
          simp only [hexpected] at h
          by_cases hequal : safeEqual presented (S.tag key v.text) = true
          · rw [safeEqual_iff] at hequal
            rw [hequal] at htoken hne
            exact ⟨key, rfl, htoken, hne⟩
          · simp [bind, Except.bind, hequal] at h
  · rintro ⟨key, hkey, htoken, hne⟩
    have hexpected : S.visitorToken v = .ok (S.tag key v.text) := by
      rw [WebchatService.visitorToken, hkey]
    have hpresented : truthy token = some (S.tag key v.text) := truthy_eq_some.mpr ⟨htoken, hne⟩
    unfold WebchatService.assertVisitor
    rw [hpresented]
    simp [hexpected, bind, Except.bind]

/-- The widget that is found is one of the channels. -/
theorem mem_of_findChannel {accounts : List Account} {widgetKey : String} {channel : Account}
    (h : findChannel accounts widgetKey = .ok channel) :
    channel ∈ accounts ∧ channel.provider = .webchatEmbed := by
  unfold findChannel findByKey at h
  split at h
  next found hfound =>
    cases h
    have htest := List.find?_some hfound
    rw [Bool.and_eq_true, Bool.and_eq_true, decide_eq_true_eq, decide_eq_true_eq] at htest
    exact ⟨List.mem_of_find?_eq_some hfound, htest.1.2⟩
  next => cases h

/-- What a message is journaled with, when it is accepted. -/
theorem postMessage_eq_ok {accounts : List Account} {widgetKey correlationId : String}
    {request : WebchatMessageRequest} {token : Option String} {hit : Option Bool} {now : Date}
    {params : JournalProviderEventsParams}
    (h : S.postMessage accounts widgetKey request token hit now correlationId = .ok params) :
    ∃ channel, findChannel accounts widgetKey = .ok channel ∧
      S.assertVisitor ⟨channel.id, request.visitorId⟩ token = .ok () ∧
        params.providerAccountId = channel.id ∧ params.workspaceId = channel.workspaceId ∧
          params.events = [journalInput request now] := by
  unfold WebchatService.postMessage at h
  cases hlimit : withinLimit messagesLimited hit with
  | error e => rw [hlimit] at h; cases h
  | ok _ =>
      cases hchannel : findChannel accounts widgetKey with
      | error e => rw [hlimit, hchannel] at h; cases h
      | ok channel =>
          cases hvisitor : S.assertVisitor ⟨channel.id, request.visitorId⟩ token with
          | error e =>
              rw [hlimit, hchannel] at h
              simp only [bind, Except.bind, hvisitor] at h
              cases h
          | ok _ =>
              rw [hlimit, hchannel] at h
              simp only [bind, Except.bind, hvisitor] at h
              cases h
              exact ⟨channel, rfl, hvisitor, rfl, rfl, rfl⟩

theorem messages_eq_ok {accounts : List Account} {widgetKey visitorId : String}
    {token : Option String} {v : Visitor} :
    S.messages accounts widgetKey visitorId token = .ok v ↔
      ∃ channel, findChannel accounts widgetKey = .ok channel ∧
        v = ⟨channel.id, visitorId⟩ ∧ S.assertVisitor v token = .ok () := by
  unfold WebchatService.messages
  cases hchannel : findChannel accounts widgetKey with
  | error e => simp [bind, Except.bind]
  | ok channel =>
      cases hvisitor : S.assertVisitor ⟨channel.id, visitorId⟩ token with
      | error e =>
          simp only [bind, Except.bind, hvisitor, Except.ok.injEq, exists_eq_left']
          constructor
          · intro h
            cases h
          · rintro ⟨rfl, h⟩
            rw [hvisitor] at h
            cases h
      | ok _ =>
          simp only [bind, Except.bind, hvisitor, Except.ok.injEq, exists_eq_left']
          constructor
          · rintro rfl
            exact ⟨rfl, hvisitor⟩
          · rintro ⟨rfl, _⟩
            rfl

/-! ## What holds of every run -/

/-- The key of an accepted message. -/
def Post.eventKey (p : Post) : String :=
  "msg:" ++ p.request.visitorId ++ ":" ++ p.request.clientMessageId

/-- The row of an accepted message. -/
structure JournaledFor (p : Post) (row : ProviderEvent) : Prop where
  channel : row.providerAccountId = p.channelId
  key : row.providerEventKey = p.eventKey
  payload : ∃ sentAt, row.payload = (journalInput p.request sentAt).payload

structure Sound (w : Site) : Prop where
  accounts : ∀ account ∈ w.accounts, HasNoColon account.id
  issued : ∀ v ∈ w.issued, HasNoColon v.channelId ∧ isVisitorId v.visitorId = true
  accepted : ∀ p ∈ w.accepted, p.visitor ∈ w.issued ∧
    HasEvent w.journal.events p.channelId p.eventKey
  journaled : ∀ row ∈ w.journal.events.rows, ∃ p ∈ w.accepted, JournaledFor p row

/-- Whose token is accepted is a visitor that was made up for the channel. -/
theorem Sound.mem_issued {w : Site} (h : Sound w) {widgetKey visitorId : String} {channel : Account}
    {token : Option String} (hchannel : findChannel w.accounts widgetKey = .ok channel)
    (hunforged : TokenUnforged S w widgetKey visitorId token)
    (hok : S.assertVisitor ⟨channel.id, visitorId⟩ token = .ok ()) :
    ⟨channel.id, visitorId⟩ ∈ w.issued := by
  have hcolon := h.accounts _ (mem_of_findChannel hchannel).1
  obtain ⟨key, hkey, htoken, _⟩ := assertVisitor_eq_ok.mp hok
  obtain ⟨v', hv', htext⟩ := hunforged channel key _ hchannel hkey htoken rfl
  rw [Visitor.text_inj hcolon (h.issued v' hv').1 htext]
  exact hv'

theorem sound_write {w : Site} (h : Sound w) {account : Account} (hid : HasNoColon account.id) :
    Sound { w with accounts := account :: w.accounts.filter fun a => a.id ≠ account.id } where
  accounts := by
    intro a ha
    rcases List.mem_cons.mp ha with rfl | ha
    · exact hid
    · exact h.accounts a (List.mem_filter.mp ha).1
  issued := h.issued
  accepted := h.accepted
  journaled := h.journaled

theorem sound_session {w : Site} (h : Sound w) {widgetKey : String}
    {request : WebchatSessionRequest} {hit : Option Bool} {random : Bytes}
    (hrandom : random.length = 12) :
    Sound { w with
      issued := (S.fresh w.accounts widgetKey request hit random).toList ++ w.issued } where
  accounts := h.accounts
  issued := by
    intro v hv
    rcases List.mem_append.mp hv with hnew | hold
    · rw [Option.mem_toList] at hnew
      unfold WebchatService.fresh at hnew
      split at hnew
      next channel _ hchannel _ =>
        split at hnew
        · cases hnew
        · cases hnew
          exact ⟨h.accounts _ (mem_of_findChannel hchannel).1, isVisitorId_fresh hrandom⟩
      next => cases hnew
    · exact h.issued v hold
  accepted := fun p hp => ⟨List.mem_append_right _ (h.accepted p hp).1, (h.accepted p hp).2⟩
  journaled := h.journaled

theorem sound_post {w : Site} (h : Sound w) {widgetKey correlationId : String}
    {request : WebchatMessageRequest} {token : Option String} {hit : Option Bool} {now : Date}
    {params : JournalProviderEventsParams} {eventIds outboxIds : Nat → Id}
    {t : Tables × Journal.JournalProviderEventsResult}
    (hunforged : TokenUnforged S w widgetKey request.visitorId token)
    (hpost : S.postMessage w.accounts widgetKey request token hit now correlationId = .ok params)
    (hbatch : journalProviderEventsInTransaction w.journal params now eventIds outboxIds = some t) :
    Sound { w with
      journal := t.1
      accepted := ⟨params.providerAccountId, request⟩ :: w.accepted } := by
  obtain ⟨channel, hchannel, hvisitor, hid, _, hevents⟩ := postMessage_eq_ok hpost
  exact {
    accounts := h.accounts
    issued := h.issued
    accepted := by
      intro p hp
      rcases List.mem_cons.mp hp with rfl | hp
      · have hmem : journalInput request now ∈ params.events := by
          rw [hevents]
          exact List.mem_cons_self
        refine ⟨?_, Journal.hasEvent_of_batch hbatch hmem⟩
        have hissued := h.mem_issued hchannel hunforged hvisitor
        rwa [← hid] at hissued
      · exact ⟨(h.accepted p hp).1, (h.accepted p hp).2.batch hbatch⟩
    journaled := by
      intro row hrow
      rcases Journal.mem_of_batch hbatch hrow with hold | ⟨event, hevent, id, rfl⟩
      · obtain ⟨p, hp, hfor⟩ := h.journaled row hold
        exact ⟨p, List.mem_cons_of_mem _ hp, hfor⟩
      · rw [hevents, List.mem_singleton] at hevent
        refine ⟨_, List.mem_cons_self, rfl, ?_, now, ?_⟩
        · rw [hevent]
          rfl
        · rw [hevent]
          rfl }

theorem sound_serve {w w' : Site} {a : Request} (h : Sound w) (hs : serve S w a = some w')
    (hhonest : Honest S w a w') : Sound w' := by
  cases a with
  | write account hid =>
      cases hs
      exact sound_write h hid
  | session widgetKey request hit random =>
      rw [serve] at hs
      split at hs
      next hrandom =>
        cases hs
        exact sound_session h hrandom
      next => cases hs
  | post widgetKey request token hit now correlationId eventIds outboxIds =>
      rw [serve] at hs
      split at hs
      next =>
        cases hs
        exact h
      next params hpost =>
        obtain ⟨t, hbatch, rfl⟩ := Option.map_eq_some_iff.mp hs
        exact sound_post h hhonest hpost hbatch

theorem sound_empty : Sound Site.empty where
  accounts := fun _ h => absurd h List.not_mem_nil
  issued := fun _ h => absurd h List.not_mem_nil
  accepted := fun _ h => absurd h List.not_mem_nil
  journaled := fun _ h => absurd h List.not_mem_nil

theorem sound_run {requests : List Request} {w : Site}
    (hhonest : (site S).Along (Honest S) Site.empty requests)
    (hrun : (site S).run Site.empty requests = some w) : Sound w := by
  exact Machine.invariant_along (I := Sound) (fun _ _ _ h hs hP => sound_serve h hs hP) sound_empty
    hhonest hrun

/-! ## The widget -/

/-- An accepted message is told by its key. -/
theorem eventKey_inj {p q : Post} (h : p.eventKey = q.eventKey) :
    p.request.visitorId = q.request.visitorId ∧
      p.request.clientMessageId = q.request.clientMessageId := by
  simp only [Post.eventKey, String.append_assoc] at h
  have hids := (String.append_right_inj "msg:").mp h
  rw [← String.append_assoc, ← String.append_assoc] at hids
  exact Adapters.joined_inj_first (hasNoColon_of_isVisitorId p.request.visitorId_pattern)
    (hasNoColon_of_isVisitorId q.request.visitorId_pattern) hids

/-- What is journaled is the event of the adapter, under its key in full. -/
theorem event_journalInput (request : WebchatMessageRequest) (sentAt : Date) :
    (request.event (toISOString sentAt)).providerEventKey =
        codeUnits (journalInput request sentAt).providerEventKey ∧
      (request.event (toISOString sentAt)).payload =
        (journalInput request sentAt).payload.map fun m => (m.1, .string m.2) := by
  have hsame : request.event (toISOString sentAt) = request.event (toISOString sentAt) := rfl
  exact ⟨Adapters.cutKey_of_uncut (Adapters.Webchat.uncut_of_request hsame), rfl⟩

theorem payload_journalInput (request : WebchatMessageRequest) (sentAt : Date) :
    (journalInput request sentAt).payload.get? "visitorId" = some request.visitorId ∧
      (journalInput request sentAt).payload.get? "clientMessageId" =
        some request.clientMessageId := by
  obtain ⟨visitorId, clientMessageId, text, name, email, pageUrl, _, _, _⟩ := request
  simp only [journalInput]
  cases truthy name <;> cases truthy email <;> cases truthy pageUrl <;> exact ⟨rfl, rfl⟩

/-- In every run whose tokens nobody forged, each journaled event is a message that
was accepted from a visitor whom `session` made up for this channel, and each
accepted message is in the journal of its channel once, however often and by
however many pages it was sent. -/
theorem widget_journals_once {requests : List Request} {w : Site}
    (hhonest : (site S).Along (Honest S) Site.empty requests)
    (hrun : (site S).run Site.empty requests = some w) :
    (∀ row ∈ w.journal.events.rows, ∃ p ∈ w.accepted,
      p.visitor ∈ w.issued ∧ JournaledFor p row) ∧
    ∀ p ∈ w.accepted, ∃! row, row ∈ w.journal.events.rows ∧
      row.providerAccountId = p.channelId ∧
        row.payload.get? "visitorId" = some p.request.visitorId ∧
          row.payload.get? "clientMessageId" = some p.request.clientMessageId := by
  have h := sound_run hhonest hrun
  constructor
  · intro row hrow
    obtain ⟨p, hp, hfor⟩ := h.journaled row hrow
    exact ⟨p, hp, (h.accepted p hp).1, hfor⟩
  · intro p hp
    have hkey : ∀ row ∈ w.journal.events.rows,
        row.payload.get? "visitorId" = some p.request.visitorId →
          row.payload.get? "clientMessageId" = some p.request.clientMessageId →
            row.providerEventKey = p.eventKey := by
      intro row hrow hvisitor hclient
      obtain ⟨q, _, hfor⟩ := h.journaled row hrow
      obtain ⟨sentAt, hpayload⟩ := hfor.payload
      obtain ⟨hvisitor', hclient'⟩ := payload_journalInput q.request sentAt
      rw [← hpayload] at hvisitor' hclient'
      rw [hfor.key, Post.eventKey, Post.eventKey, Option.some.inj (hvisitor'.symm.trans hvisitor),
        Option.some.inj (hclient'.symm.trans hclient)]
    obtain ⟨row, hfind⟩ := (h.accepted p hp).2
    obtain ⟨hrow, hkeys⟩ := Table.find?_eq_some.mp hfind
    obtain ⟨hchannel, heventKey⟩ := ProviderEvent.provider_mem_keys.mp hkeys
    obtain ⟨q, _, hfor⟩ := h.journaled row hrow
    obtain ⟨sentAt, hpayload⟩ := hfor.payload
    obtain ⟨hvisitor, hclient⟩ := eventKey_inj (hfor.key.symm.trans heventKey)
    obtain ⟨hvisitor', hclient'⟩ := payload_journalInput q.request sentAt
    refine ⟨row, ⟨hrow, hchannel, ?_, ?_⟩, ?_⟩
    · rw [hpayload, hvisitor', hvisitor]
    · rw [hpayload, hclient', hclient]
    · rintro other ⟨hother, hchannel', hv, hc⟩
      refine Table.eq_of_shared_key hother hrow
        (k := .provider p.channelId p.eventKey) ?_
        (ProviderEvent.provider_mem_keys.mpr ⟨hchannel, heventKey⟩)
      exact ProviderEvent.provider_mem_keys.mpr ⟨hchannel', hkey other hother hv hc⟩

/-- The message is of a conversation with the visitor, and agents did not keep it to
themselves. -/
def IsWith (db : Db) (v : Visitor) (m : Message) : Prop :=
  m.isPrivate = false ∧ ∃ c i, db.conversations.find? m.conversationId = some c ∧
    c.contactIdentityId = i.id ∧ i ∈ db.identities.rows ∧ i.providerAccountId = v.channelId ∧
      i.externalId = v.visitorId

theorem isWith_of_page {db : Db} {v : Visitor} {since : Option Date} {rows : List Message}
    (h : IsPage db v since rows) {m : Message} (hm : m ∈ rows) : IsWith db v m := by
  unfold IsPage at h
  cases hidentity : v.identityId db with
  | none =>
      rw [hidentity] at h
      rw [h] at hm
      cases hm
  | some identityId =>
      rw [hidentity] at h
      obtain ⟨_, hvisible⟩ := h.selected m hm
      simp only [Delivery.visible, directory, Bool.and_eq_true, decide_eq_true_eq,
        Option.map_eq_some_iff] at hvisible
      obtain ⟨⟨⟨c, hc, hcontact⟩, hprivate⟩, _⟩ := hvisible
      obtain ⟨i, hfind, hid⟩ := Option.map_eq_some_iff.mp hidentity
      obtain ⟨hi, hkeys⟩ := Table.find?_eq_some.mp hfind
      refine ⟨hprivate, c, i, hc, hcontact.trans hid.symm, hi, ?_⟩
      simpa [ContactIdentity.keys, eq_comm] using hkeys

/-- A message is of a conversation with one visitor. -/
theorem IsWith.inj {db : Db} {v v' : Visitor} {m : Message} (h : IsWith db v m)
    (h' : IsWith db v' m) : v = v' := by
  obtain ⟨_, c, i, hc, hid, hi, hchannel, hvisitor⟩ := h
  obtain ⟨_, c', i', hc', hid', hi', hchannel', hvisitor'⟩ := h'
  have hsame : c = c' := Option.some.inj (hc.symm.trans hc')
  subst hsame
  have hi_eq : i = i' := Table.eq_of_shared_key hi hi' (k := .id i.id)
    (by simp [ContactIdentity.keys]) (by simp [ContactIdentity.keys, hid.symm.trans hid'])
  subst hi_eq
  cases v
  cases v'
  simp only at hchannel hvisitor hchannel' hvisitor'
  rw [← hchannel, ← hvisitor, ← hchannel', ← hvisitor']

/-- The identity that a session returns comes with its tag. -/
theorem session_eq_ok {accounts : List Account} {widgetKey : String}
    {request : WebchatSessionRequest} {hit : Option Bool} {random : Bytes} {s : Session}
    (h : S.session accounts widgetKey request hit random = .ok s) :
    ∃ channel, findChannel accounts widgetKey = .ok channel ∧
      ∃ key, S.key = some key ∧
        s.visitorToken = S.tag key (Visitor.text ⟨channel.id, s.visitorId⟩) := by
  unfold WebchatService.session at h
  cases hlimit : withinLimit sessionsLimited hit with
  | error e => rw [hlimit] at h; cases h
  | ok _ =>
      cases hchannel : findChannel accounts widgetKey with
      | error e => rw [hlimit, hchannel] at h; cases h
      | ok channel =>
          rw [hlimit, hchannel] at h
          simp only [bind, Except.bind] at h
          refine ⟨channel, rfl, ?_⟩
          split at h
          next known hknown =>
            cases h
            unfold WebchatService.recognizes at hknown
            split at hknown
            next visitorId token _ _ =>
              split at hknown
              next hvisitor =>
                cases hknown
                obtain ⟨key, hkey, htoken, _⟩ := assertVisitor_eq_ok.mp hvisitor
                exact ⟨key, hkey, Option.some.inj htoken⟩
              next => cases hknown
            next => cases hknown
          next =>
            cases hkey : S.key with
            | none =>
                rw [WebchatService.visitorToken, hkey] at h
                cases h
            | some key =>
                rw [WebchatService.visitorToken, hkey] at h
                cases h
                exact ⟨key, rfl, rfl⟩

/-- In every run whose tokens nobody forged, a page reads as a visitor exactly when
`session` made the visitor up for the widget's channel and the page has their token.
The identity that a session returns can read, and what is read is the
conversation with this visitor and no other. -/
theorem widget_reads_own (hdigest : ∀ key text, (S.hmac key text).length = 32)
    {requests : List Request} {w : Site}
    (hhonest : (site S).Along (Honest S) Site.empty requests)
    (hrun : (site S).run Site.empty requests = some w) :
    (∀ widgetKey visitorId token, TokenUnforged S w widgetKey visitorId token → ∀ v,
      S.messages w.accounts widgetKey visitorId token = .ok v ↔
        v ∈ w.issued ∧ v.visitorId = visitorId ∧
          (∃ channel, findChannel w.accounts widgetKey = .ok channel ∧ channel.id = v.channelId) ∧
            ∃ key, S.key = some key ∧ token = some (S.tag key v.text)) ∧
    (∀ widgetKey request hit random s,
      S.session w.accounts widgetKey request hit random = .ok s →
        ∃ v, S.messages w.accounts widgetKey s.visitorId (some s.visitorToken) = .ok v) ∧
    ∀ db v since rows, IsPage db v since rows →
      ∀ m ∈ rows, IsWith db v m ∧ ∀ v', IsWith db v' m → v' = v := by
  have h := sound_run hhonest hrun
  refine ⟨fun widgetKey visitorId token hunforged v => ?_,
    fun widgetKey request hit random s hsession => ?_, fun db v since rows hpage m hm => ?_⟩
  · rw [messages_eq_ok]
    constructor
    · rintro ⟨channel, hchannel, rfl, hvisitor⟩
      obtain ⟨key, hkey, htoken, _⟩ := assertVisitor_eq_ok.mp hvisitor
      exact ⟨h.mem_issued hchannel hunforged hvisitor, rfl, ⟨channel, hchannel, rfl⟩, key, hkey,
        htoken⟩
    · rintro ⟨_, rfl, ⟨channel, hchannel, hid⟩, key, hkey, htoken⟩
      refine ⟨channel, hchannel, ?_, ?_⟩
      · rw [hid]
      · exact assertVisitor_eq_ok.mpr
          ⟨key, hkey, htoken, Adapters.hmacBase64Url_ne_empty hdigest key v.text⟩
  · obtain ⟨channel, hchannel, key, hkey, htoken⟩ := session_eq_ok hsession
    refine ⟨⟨channel.id, s.visitorId⟩, messages_eq_ok.mpr ⟨channel, hchannel, rfl, ?_⟩⟩
    exact assertVisitor_eq_ok.mpr ⟨key, hkey, congrArg some htoken,
      Adapters.hmacBase64Url_ne_empty hdigest key _⟩
  · have hwith := isWith_of_page hpage hm
    exact ⟨hwith, fun v' hwith' => hwith'.inj hwith⟩

/-! ## A visitor -/

/-- The site's widget. -/
def exampleAccount : Account where
  id := "c1"
  workspaceId := "w1"
  provider := .webchatEmbed
  accountIdentifier := "Website"
  webhookKey := some "key"

def exampleRandom : Bytes := List.replicate 12 7

/-- Who the first session makes up. -/
def exampleVisitor : Visitor := ⟨"c1", freshVisitorId exampleRandom⟩

/-- A service with a key. -/
def exampleService : WebchatService where
  key := some []
  hmac := Adapters.exampleHmac exampleVisitor.text

def exampleRequest : WebchatMessageRequest where
  visitorId := freshVisitorId exampleRandom
  clientMessageId := "message-1"
  text := "hello"
  visitorId_pattern := isVisitorId_fresh rfl
  clientMessageId_pattern := rfl
  email_length := fun _ h => absurd h.symm (Option.some_ne_none _)

def exampleToken : String := exampleService.tag [] exampleVisitor.text

/-- A visitor sends a message, and sends it again. -/
def visits : List Request :=
  [.write exampleAccount (by decide),
    .session "key" ⟨none, none⟩ (some true) exampleRandom,
    .post "key" exampleRequest (some exampleToken) (some true) 0 "r1" (fun _ => "e1")
      (fun _ => "o1"),
    .post "key" exampleRequest (some exampleToken) (some true) 1 "r2" (fun _ => "e2")
      (fun _ => "o2")]

/-- The site after some requests. -/
def siteAfter (requests : List Request) : Site :=
  ((site exampleService).run Site.empty requests).getD Site.empty

theorem run_visits : (site exampleService).run Site.empty visits = some (siteAfter visits) := rfl

theorem exampleToken_unforged {w : Site} {widgetKey visitorId : String}
    (h : exampleVisitor ∈ w.issued) :
    TokenUnforged exampleService w widgetKey visitorId (some exampleToken) := by
  intro channel key presented _ hkey hpresented htag
  cases hkey
  cases hpresented
  exact ⟨exampleVisitor, h,
    Adapters.exampleHmac_inj [] (Adapters.hmacBase64Url_inj htag)⟩

theorem honest_visits : (site exampleService).Along (Honest exampleService) Site.empty visits := by
  intro w1 h1
  cases h1
  refine ⟨trivial, fun w2 h2 => ⟨trivial, ?_⟩⟩
  cases h2
  refine fun w3 h3 => ⟨exampleToken_unforged List.mem_cons_self, ?_⟩
  cases h3
  exact fun w4 h4 => ⟨exampleToken_unforged List.mem_cons_self, trivial⟩

/-- The message that was sent twice is journaled once. -/
theorem greeting_journaled_once : ∃! row, row ∈ (siteAfter visits).journal.events.rows ∧
    row.providerAccountId = "c1" ∧
      row.payload.get? "visitorId" = some exampleRequest.visitorId ∧
        row.payload.get? "clientMessageId" = some "message-1" :=
  (widget_journals_once honest_visits run_visits).2 ⟨"c1", exampleRequest⟩ List.mem_cons_self

/-- The visitor can read. -/
theorem visitor_reads : ∃ v, exampleService.messages (siteAfter visits).accounts "key"
    exampleRequest.visitorId (some exampleToken) = .ok v := by
  have hreads := (widget_reads_own (Adapters.length_exampleHmac _) honest_visits run_visits).1 "key"
    exampleRequest.visitorId (some exampleToken) (exampleToken_unforged List.mem_cons_self)
    exampleVisitor
  exact ⟨exampleVisitor, hreads.mpr
    ⟨List.mem_cons_self, rfl, ⟨exampleAccount, rfl, rfl⟩, [], rfl, rfl⟩⟩

end Vynor.Webchat
