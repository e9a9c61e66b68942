import Vynor.Webhooks.Signatures

/-!
# What webhooks bring in

`WebhookIngestService.handle` from the request on: the adapter of the path, the
channel of the token, the check of its adapter, and the events of the body, which
are then journaled group by group.

Anybody can send requests to the endpoint, at any time and any number of them at
once, while channels are connected, changed and deleted, and VYNOR posts to the
customers' systems with the secrets they sign with.  A row of the journal is filed
under a channel of the workspace and the provider whose secret was presented, and
its event stands in a body that was signed with it by the other side
(`journaled_of_signed`).
-/

namespace Vynor.Webhooks

open Lib (Bytes Json Machine Table)
open Adapters (Hmac)
open Adapters.CustomApi (Outbound)
open Journal (ProviderEvent Tables)

/-! ## The service -/

/-- A channel with its secrets, which cannot always be decrypted. -/
structure StoredChannel extends Account where
  secrets : Option ChannelSecrets
deriving DecidableEq, Repr

/-- The table `provider_accounts`. -/
structure StoredChannels where
  rows : List StoredChannel
  unique : (rows.map fun c => c.toChannel).Pairwise fun a b => a.keys.Disjoint b.keys

/-- The columns that routing reads. -/
def StoredChannels.toChannels (channels : StoredChannels) : Channels :=
  ⟨channels.rows.map fun c => c.toChannel, channels.unique⟩

/-- What the adapters do besides checking requests.  The Custom API finds events where
`CustomApiAdapter.extractEvents` does. -/
structure Ingress where
  hmac : Hmac
  extractEvents : ChannelProviderType → Json → List ExtractedProviderEvent
  custom_events : ∀ payload, extractEvents .customWebhook payload ≠ [] →
    Adapters.CustomApi.extractEvents payload ≠ []

/-- `getByWebhookPath`. -/
def getByWebhookPath (path : String) : Option ChannelProviderType :=
  Lib.OrderedMap.get?
    [("whatsapp", .whatsappCloud), ("telegram", .telegramBot), ("messenger", .metaMessenger),
      ("instagram", .metaInstagram), ("line", .lineMessaging), ("custom", .customWebhook)] path

/-- `WebhookResponse`, but for the counts. -/
inductive ResponseBody where
  | challenge (text : String)
  | ok
  | refused (message : String)
deriving DecidableEq, Repr

/-- The answer for unknown providers and tokens. -/
def unknownWebhook : Nat × ResponseBody := (404, .refused "Unknown webhook.")

/-- What `handle` does with a request before it journals: it answers, or goes on
with the events. -/
inductive Handled where
  | answered (response : Nat × ResponseBody)
  | accepted (channel : StoredChannel) (secrets : ChannelSecrets) (webhook : Webhook)

/-- The payload of a body. -/
def parseBody (rawBody : Bytes) : Option Json :=
  if rawBody = [] then some (.object []) else Lib.Json.parse (Lib.Utf8.decode rawBody)

/-- The test of `findFirst`. -/
def isUnderToken (provider : ChannelProviderType) (webhookKey : String) (c : StoredChannel) :
    Bool :=
  c.webhookKey = some webhookKey && c.provider = provider && c.deletedAt.isNone

/-- The webhook of a channel that was found. -/
def webhookOf (channels : StoredChannels) (provider : ChannelProviderType) (webhookKey : String)
    (channel : StoredChannel)
    (h : channels.rows.find? (isUnderToken provider webhookKey) = some channel)
    (events : List ExtractedProviderEvent) : Webhook where
  channels := channels.toChannels
  channel := channel.toChannel
  events := events
  mem := List.mem_map_of_mem (List.mem_of_find?_eq_some h)
  undeleted := by
    have htest := List.find?_some h
    rw [isUnderToken, Bool.and_eq_true] at htest
    exact Option.isNone_iff_eq_none.mp htest.2

/-- `handle` up to the journal. -/
def handle (I : Ingress) (channels : StoredChannels) (now : Date)
    (providerPath webhookKey : String) (request : WebhookRequest) : Handled :=
  match getByWebhookPath providerPath with
  | none => .answered unknownWebhook
  | some provider =>
      match hfind : channels.rows.find? (isUnderToken provider webhookKey) with
      | none => .answered unknownWebhook
      | some channel =>
          match channel.secrets with
          | none => .answered (503, .refused "Channel temporarily unavailable.")
          | some secrets =>
              match validateWebhook? I.hmac now provider request secrets with
              | none => .answered unknownWebhook
              | some (.invalid statusCode failureReason) =>
                  .answered (statusCode, .refused failureReason)
              | some (.valid challenge) =>
                  match request.method with
                  | .get => .answered (200, (challenge.map ResponseBody.challenge).getD .ok)
                  | .post =>
                      match parseBody request.rawBody with
                      | none => .answered (400, .refused "Malformed request payload.")
                      | some payload => .accepted channel secrets
                          (webhookOf channels provider webhookKey channel hfind
                            (I.extractEvents provider payload))

/-! ## Runs -/

/-- A request whose events are journaled. -/
structure Task where
  receivedAt : Date
  request : WebhookRequest
  channel : StoredChannel
  secrets : ChannelSecrets
  webhook : Webhook
  stage : Delivery

/-- The channels, the journal, and what was signed. -/
structure Site where
  channels : StoredChannels
  journal : Tables
  ledger : Ledger
  task : DeliveryId → Option Task

inductive Event where
  /-- Channels are connected, changed and deleted. -/
  | write (channels : StoredChannels)
  /-- Meta or LINE sign a body. -/
  | signBody (secret : String) (body : Bytes)
  /-- A customer's system signs a message. -/
  | signMessage (m : SignedMessage)
  /-- VYNOR posts to the endpoint of a channel. -/
  | post (webhookSecret : Option String) (channelId : Id) (now : Date) (outbound : Outbound)
  /-- Somebody sends a request. -/
  | receive (d : DeliveryId) (now : Date) (providerPath webhookKey : String)
      (request : WebhookRequest) (correlationId : String)
  | journal (d : DeliveryId) (now : Date) (eventIds outboxIds : Nat → Id)

/-- The task of a request that is accepted. -/
def Site.start (w : Site) (d : DeliveryId) (task : Task) : Site :=
  { w with task := Function.update w.task d (some task) }

/-- One step. -/
def Ingress.step (I : Ingress) (w : Site) : Event → Option Site
  | .write channels => some { w with channels := channels }
  | .signBody secret body =>
      some { w with ledger := { w.ledger with bodies := (secret, body) :: w.ledger.bodies } }
  | .signMessage m =>
      some { w with ledger := { w.ledger with messages := m :: w.ledger.messages } }
  | .post webhookSecret channelId now outbound =>
      -- without a secret the adapter throws before it signs
      match truthy webhookSecret with
      | none => some w
      | some secret =>
          let post : OwnPost := ⟨secret, channelId, now, outbound⟩
          some { w with ledger := { w.ledger with posts := post :: w.ledger.posts } }
  | .receive d now providerPath webhookKey request correlationId =>
      match w.task d with
      | some _ => none
      | none =>
          match handle I w.channels now providerPath webhookKey request with
          | .answered _ => some w
          | .accepted channel secrets webhook =>
              some (w.start d
                { receivedAt := now
                  request := request
                  channel := channel
                  secrets := secrets
                  webhook := webhook
                  stage := .journaling (journaledHeaders request.headers) correlationId
                    webhook.route 0 0 })
  | .journal d now eventIds outboxIds =>
      match w.task d with
      | none => none
      | some task =>
          match task.stage with
          | .journaling headers correlationId ((targetId, group) :: rest) accepted duplicates => do
              let (t, accepted, duplicates) ← task.webhook.journalGroup w.journal headers
                correlationId targetId group accepted duplicates now eventIds outboxIds
              some { w.start d { task with
                       stage := .journaling headers correlationId rest accepted duplicates } with
                     journal := t }
          | _ => none

def Ingress.machine (I : Ingress) : Machine Site Event := { step := I.step }

/-- The signatures of the requests are not forged. -/
def Ingress.Honest (I : Ingress) (w : Site) (a : Event) (_ : Site) : Prop :=
  match a with
  | .receive _ _ _ _ request _ => ∀ channel ∈ w.channels.rows, ∀ secrets,
      channel.secrets = some secrets →
        SignatureUnforged I.hmac w.ledger channel.provider secrets request
  | _ => True

/-! ## What is journaled -/

variable {I : Ingress}

/-- What is known of a request whose events are journaled. -/
structure Genuine (I : Ingress) (w : Site) (task : Task) : Prop where
  found : task.channel.secrets = some task.secrets
  channel : task.webhook.channel = task.channel.toChannel
  events : ∃ payload, parseBody task.request.rawBody = some payload ∧
    task.webhook.events = I.extractEvents task.channel.provider payload
  authentic : task.webhook.events ≠ [] →
    Authentic w.ledger task.channel.provider task.secrets task.receivedAt task.request

/-- A request that is accepted. -/
theorem handle_eq_accepted {channels : StoredChannels} {now : Date}
    {providerPath webhookKey : String} {request : WebhookRequest} {channel : StoredChannel}
    {secrets : ChannelSecrets} {webhook : Webhook}
    (h : handle I channels now providerPath webhookKey request =
      .accepted channel secrets webhook) :
    channel ∈ channels.rows ∧ channel.secrets = some secrets ∧
      webhook.channel = channel.toChannel ∧ request.method = .post ∧
        (∃ challenge,
          validateWebhook? I.hmac now channel.provider request secrets = some (.valid challenge)) ∧
          ∃ payload, parseBody request.rawBody = some payload ∧
            webhook.events = I.extractEvents channel.provider payload := by
  unfold handle at h
  split at h
  next => cases h
  next provider _ =>
    split at h
    next => cases h
    next found hfind =>
      have htest := List.find?_some hfind
      rw [isUnderToken, Bool.and_eq_true, Bool.and_eq_true, decide_eq_true_eq,
        decide_eq_true_eq] at htest
      obtain ⟨⟨_, hprovider⟩, _⟩ := htest
      split at h
      next => cases h
      next secrets' hsecrets =>
        split at h
        next => cases h
        next => cases h
        next challenge hvalid =>
          split at h
          next => cases h
          next hpost =>
            split at h
            next => cases h
            next payload hparse =>
              cases h
              rw [← hprovider] at hvalid
              refine ⟨List.mem_of_find?_eq_some hfind, hsecrets, rfl, hpost, ⟨challenge, hvalid⟩,
                payload, hparse, ?_⟩
              rw [hprovider]
              rfl

/-- The body of an event of the Custom API is an object. -/
theorem isObjectText_of_events {rawBody : Bytes} {payload : Json}
    (hparse : parseBody rawBody = some payload)
    (hevents : I.extractEvents .customWebhook payload ≠ []) : IsObjectText rawBody := by
  obtain ⟨members, rfl, hmembers⟩ :=
    Adapters.CustomApi.exists_object_of_extractEvents (I.custom_events payload hevents)
  rw [parseBody] at hparse
  split at hparse
  · cases hparse
    exact absurd rfl hmembers
  · exact ⟨members, hparse⟩

/-- A body with an event of the Custom API is none that VYNOR posts. -/
theorem ownPost_body_ne {rawBody : Bytes} {payload : Json}
    (hparse : parseBody rawBody = some payload)
    (hevents : I.extractEvents .customWebhook payload ≠ []) (p : OwnPost) :
    p.message.body ≠ rawBody := by
  rintro rfl
  have hbody : p.message.body ≠ [] := by
    intro hempty
    obtain ⟨members, hobject⟩ := isObjectText_ownPost p
    rw [hempty] at hobject
    cases hobject
  rw [parseBody, if_neg hbody, parse_ownPost_body, Option.some.injEq] at hparse
  subst hparse
  exact I.custom_events _ hevents (Adapters.CustomApi.extractEvents_outbound p.channelId p.outbound)

theorem genuine_of_handle {w : Site} {now : Date} {providerPath webhookKey : String}
    {request : WebhookRequest} {channel : StoredChannel} {secrets : ChannelSecrets}
    {webhook : Webhook} {stage : Delivery}
    (hunforged : ∀ channel ∈ w.channels.rows, ∀ secrets, channel.secrets = some secrets →
      SignatureUnforged I.hmac w.ledger channel.provider secrets request)
    (h : handle I w.channels now providerPath webhookKey request =
      .accepted channel secrets webhook) :
    Genuine I w ⟨now, request, channel, secrets, webhook, stage⟩ := by
  obtain ⟨hmem, hsecrets, hchannel, hpost, ⟨challenge, hvalid⟩, payload, hparse, hevents⟩ :=
    handle_eq_accepted h
  refine ⟨hsecrets, hchannel, ⟨payload, hparse, hevents⟩, fun hne => ?_⟩
  refine authentic_of_valid hpost hvalid (fun hcustom => ?_)
    (hunforged channel hmem secrets hsecrets)
  rw [hcustom] at hevents
  have hcustomEvents : I.extractEvents .customWebhook payload ≠ [] := hevents ▸ hne
  exact ⟨isObjectText_of_events hparse hcustomEvents,
    fun p _ => ownPost_body_ne hparse hcustomEvents p⟩

theorem Genuine.mono {w w' : Site} {task : Task} (h : Genuine I w task)
    (hbodies : ∀ p ∈ w.ledger.bodies, p ∈ w'.ledger.bodies)
    (hmessages : ∀ m ∈ w.ledger.messages, m ∈ w'.ledger.messages) : Genuine I w' task :=
  ⟨h.found, h.channel, h.events, fun hne => (h.authentic hne).mono hbodies hmessages⟩

/-- The groups that are left are groups of the request. -/
def StageOk (webhook : Webhook) : Delivery → Prop
  | .journaling _ _ rest _ _ => ∀ p ∈ rest, p ∈ webhook.route
  | _ => True

/-- What holds of the site between the steps. -/
structure Sound (I : Ingress) (initial : List ProviderEvent) (w : Site) : Prop where
  tasks : ∀ d task, w.task d = some task → Genuine I w task ∧ StageOk task.webhook task.stage
  rows : ∀ row ∈ w.journal.events.rows, row ∈ initial ∨
    ∃ d task, w.task d = some task ∧ task.webhook.Files row

variable {initial : List ProviderEvent}

/-- A step that leaves the journal and the requests as they are. -/
theorem Sound.mono {w w' : Site} (h : Sound I initial w) (htask : w'.task = w.task)
    (hjournal : w'.journal = w.journal) (hbodies : ∀ p ∈ w.ledger.bodies, p ∈ w'.ledger.bodies)
    (hmessages : ∀ m ∈ w.ledger.messages, m ∈ w'.ledger.messages) : Sound I initial w' where
  tasks := by
    intro d task hd
    rw [htask] at hd
    exact ⟨(h.tasks d task hd).1.mono hbodies hmessages, (h.tasks d task hd).2⟩
  rows := by
    intro row hrow
    rw [hjournal] at hrow
    rw [htask]
    exact h.rows row hrow

/-- A request whose task is new, or the same but for its stage. -/
theorem Sound.start {w : Site} (h : Sound I initial w) {d : DeliveryId} {task : Task}
    (hgenuine : Genuine I w task) (hstage : StageOk task.webhook task.stage)
    (hold : ∀ before, w.task d = some before → before.webhook = task.webhook) {t : Tables}
    (hrows : ∀ row ∈ t.events.rows, row ∈ w.journal.events.rows ∨ task.webhook.Files row) :
    Sound I initial { w.start d task with journal := t } where
  tasks := by
    intro e found he
    have he' : Function.update w.task d (some task) e = some found := he
    by_cases hed : e = d
    · rw [hed, Function.update_self] at he'
      cases he'
      exact ⟨hgenuine.mono (fun _ hp => hp) (fun _ hm => hm), hstage⟩
    · rw [Function.update_of_ne hed] at he'
      exact ⟨(h.tasks e found he').1.mono (fun _ hp => hp) (fun _ hm => hm),
        (h.tasks e found he').2⟩
  rows := by
    intro row hrow
    have hself : (Function.update w.task d (some task)) d = some task := Function.update_self ..
    rcases hrows row hrow with hrow | hfiles
    · rcases h.rows row hrow with hinitial | ⟨e, found, he, hfiles⟩
      · exact Or.inl hinitial
      · right
        by_cases hed : e = d
        · rw [hed] at he
          exact ⟨d, task, hself, hold found he ▸ hfiles⟩
        · refine ⟨e, found, ?_, hfiles⟩
          change Function.update w.task d (some task) e = some found
          rwa [Function.update_of_ne hed]
    · exact Or.inr ⟨d, task, hself, hfiles⟩

theorem sound_step {w w' : Site} {a : Event} (h : Sound I initial w) (hs : I.step w a = some w')
    (hhonest : I.Honest w a w') : Sound I initial w' := by
  cases a with
  | write channels =>
      cases hs
      exact h.mono rfl rfl (fun _ hp => hp) (fun _ hm => hm)
  | signBody secret body =>
      cases hs
      exact h.mono rfl rfl (fun _ hp => List.mem_cons_of_mem _ hp) (fun _ hm => hm)
  | signMessage m =>
      cases hs
      exact h.mono rfl rfl (fun _ hp => hp) (fun _ hm => List.mem_cons_of_mem _ hm)
  | post webhookSecret channelId now outbound =>
      rw [Ingress.step] at hs
      split at hs
      next =>
        cases hs
        exact h
      next =>
        cases hs
        exact h.mono rfl rfl (fun _ hp => hp) (fun _ hm => hm)
  | receive d now providerPath webhookKey request correlationId =>
      rw [Ingress.step] at hs
      split at hs
      next => cases hs
      next hfree =>
        split at hs
        next =>
          cases hs
          exact h
        next channel secrets webhook hhandle =>
          cases hs
          refine h.start (t := w.journal) (genuine_of_handle hhonest hhandle) ?_ ?_
            (fun _ hrow => Or.inl hrow)
          · exact fun _ hp => hp
          intro before hbefore
          rw [hfree] at hbefore
          cases hbefore
  | journal d now eventIds outboxIds =>
      rw [Ingress.step] at hs
      split at hs
      next => cases hs
      next task htask =>
        obtain ⟨hgenuine, hstage⟩ := h.tasks d task htask
        split at hs
        next headers correlationId targetId group rest accepted duplicates hjournaling =>
          simp only [Option.bind_eq_bind, Option.bind_eq_some_iff] at hs
          obtain ⟨⟨t, accepted', duplicates'⟩, hgroup, heq⟩ := hs
          cases heq
          rw [hjournaling] at hstage
          have hjournals :=
            Webhook.journals_of_journalGroup (hstage _ List.mem_cons_self) hgroup
          refine h.start ?_ ?_ ?_ hjournals.origin
          · exact ⟨hgenuine.found, hgenuine.channel, hgenuine.events, hgenuine.authentic⟩
          · exact fun p hp => hstage p (List.mem_cons_of_mem _ hp)
          · intro before hbefore
            rw [htask] at hbefore
            cases hbefore
            rfl
        next => cases hs

/-- Nothing was signed or received yet. -/
def Site.init (channels : StoredChannels) (journal : Tables) : Site :=
  ⟨channels, journal, ⟨[], [], []⟩, fun _ => none⟩

/-- In every run whose signatures nobody forged, a row that came into the journal
stands for an event of a request that a channel was given under its token.  The
row is filed under this channel or a sibling of the event's account, and the
request is authentic: its body was signed with the secret of the channel, for the
Custom API by the customer, together with the timestamp that the request names and no
more than five minutes ago.  What VYNOR itself signed with this secret comes back
without an event. -/
theorem journaled_of_signed {channels : StoredChannels} {journal : Tables} {events : List Event}
    {w : Site} (hhonest : I.machine.Along I.Honest (Site.init channels journal) events)
    (hrun : I.machine.run (Site.init channels journal) events = some w) :
    ∀ row ∈ w.journal.events.rows, row ∈ journal.events.rows ∨
      ∃ d task, w.task d = some task ∧ task.webhook.Files row ∧
        task.channel.secrets = some task.secrets ∧
          task.webhook.channel = task.channel.toChannel ∧
            (∃ payload, parseBody task.request.rawBody = some payload ∧
              task.webhook.events = I.extractEvents task.channel.provider payload) ∧
              Authentic w.ledger task.channel.provider task.secrets task.receivedAt
                task.request := by
  have hsound : Sound I journal.events.rows w := by
    refine Machine.invariant_along (I := Sound I journal.events.rows)
      (fun _ _ _ h hs hP => sound_step h hs hP) ?_ hhonest hrun
    refine ⟨?_, fun _ hrow => Or.inl hrow⟩
    intro d task hd
    cases hd
  intro row hrow
  rcases hsound.rows row hrow with hinitial | ⟨d, task, hd, hfiles⟩
  · exact Or.inl hinitial
  · have hgenuine := (hsound.tasks d task hd).1
    have hne : task.webhook.events ≠ [] := by
      obtain ⟨event, hevent, _⟩ := hfiles
      exact List.ne_nil_of_mem hevent
    exact Or.inr ⟨d, task, hd, hfiles, hgenuine.found, hgenuine.channel, hgenuine.events,
      hgenuine.authentic hne⟩

/-! ## A message on LINE and one of a customer -/

def exampleBody : Bytes := Lib.Utf8.encode "\x7b\x7d"

/-- A message of a customer's system. -/
def exampleMessage : SignedMessage where
  secret := "whsec"
  timestamp := "0"
  body := Lib.Utf8.encode "\x7b\"messageId\":\"m1\"\x7d"

/-- A service whose LINE adapter finds one event in each body.  Its hash tells one text
from all others. -/
def exampleIngress (tagged : Bytes) : Ingress where
  hmac := Adapters.exampleHmac tagged
  extractEvents provider payload :=
    match provider with
    | .lineMessaging => [⟨"event:1", false, [], none⟩]
    | .customWebhook =>
        (Adapters.CustomApi.extractEvents payload).map fun _ => ⟨"msg:m1", false, [], none⟩
    | _ => []
  custom_events := fun _ h hnone => h (by rw [hnone]; rfl)

def exampleLine : StoredChannel where
  id := "c1"
  workspaceId := "w1"
  provider := .lineMessaging
  accountIdentifier := "U1"
  webhookKey := some "key"
  secrets := some ⟨"secret", none, none⟩

def exampleCustom : StoredChannel where
  id := "c2"
  workspaceId := "w1"
  provider := .customWebhook
  accountIdentifier := "U2"
  webhookKey := some "key2"
  secrets := some ⟨"", some "whsec", none⟩

/-- The request of LINE. -/
def lineRequest : WebhookRequest where
  method := .post
  rawBody := exampleBody
  headers := [("X-Line-Signature",
    .one (Adapters.hmacSha256Base64 (Adapters.exampleHmac exampleBody) "secret" exampleBody))]
  query := []

/-- A request with what was signed under the scheme of the Custom API. -/
def customRequest (m : SignedMessage) : WebhookRequest where
  method := .post
  rawBody := m.body
  headers := [("X-Vynor-Timestamp", .one m.timestamp), ("X-Vynor-Signature",
    .one (signCustomApiPayload (Adapters.exampleHmac exampleMessage.text) m.secret m.timestamp
      m.body))]
  query := []

/-- A ping to the customer's system. -/
def examplePing : OwnPost := ⟨"whsec", "c2", 0, .ping 0⟩

def lineEvents : List Event :=
  [.signBody "secret" exampleBody, .receive 0 0 "line" "key" lineRequest "r1",
    .journal 0 0 (fun _ => "e1") (fun _ => "o1")]

/-- The ping comes back before the message is received. -/
def customEvents : List Event :=
  [.signMessage exampleMessage, .post (some "whsec") "c2" 0 (.ping 0),
    .receive 0 0 "custom" "key2" (customRequest examplePing.message) "r1",
    .receive 1 0 "custom" "key2" (customRequest exampleMessage) "r2",
    .journal 1 0 (fun _ => "e1") (fun _ => "o1")]

def exampleInit (channel : StoredChannel) : Site :=
  Site.init ⟨[channel], List.pairwise_singleton _ _⟩ ⟨.empty, .empty⟩

/-- The site after some events. -/
def siteAfter (tagged : Bytes) (channel : StoredChannel) (events : List Event) : Site :=
  ((exampleIngress tagged).machine.run (exampleInit channel) events).getD (exampleInit channel)

theorem run_lineEvents : (exampleIngress exampleBody).machine.run (exampleInit exampleLine)
    lineEvents = some (siteAfter exampleBody exampleLine lineEvents) := rfl

theorem rows_customEvents :
    ((exampleIngress exampleMessage.text).machine.run (exampleInit exampleCustom)
      customEvents).map (fun w => w.journal.events.rows.length) = some 1 := by
  decide +kernel

theorem run_customEvents :
    (exampleIngress exampleMessage.text).machine.run (exampleInit exampleCustom) customEvents =
      some (siteAfter exampleMessage.text exampleCustom customEvents) := by
  obtain ⟨w, hw, _⟩ := Option.map_eq_some_iff.mp rows_customEvents
  rw [siteAfter, hw, Option.getD_some]

theorem honest_lineEvents : (exampleIngress exampleBody).machine.Along
    (exampleIngress exampleBody).Honest (exampleInit exampleLine) lineEvents := by
  intro w1 h1
  cases h1
  refine ⟨trivial, fun w2 h2 => ⟨?_, fun w3 _ => ⟨trivial, trivial⟩⟩⟩
  intro channel hchannel secrets hsecrets
  rw [List.mem_singleton.mp hchannel] at hsecrets ⊢
  cases hsecrets
  intro signature _ _
  exact List.mem_cons_self

theorem frame_receive {w w' : Site} {d : DeliveryId} {now : Date}
    {providerPath webhookKey correlationId : String} {request : WebhookRequest}
    (hs : I.machine.step w (.receive d now providerPath webhookKey request correlationId) =
      some w') : w'.channels = w.channels ∧ w'.ledger = w.ledger := by
  have hs : I.step w (.receive d now providerPath webhookKey request correlationId) = some w' := hs
  rw [Ingress.step] at hs
  split at hs
  next => cases hs
  next =>
    split at hs
    next =>
      cases hs
      exact ⟨rfl, rfl⟩
    next =>
      cases hs
      exact ⟨rfl, rfl⟩

/-- A request with what was signed is not forged. -/
theorem unforged_customRequest {L : Ledger} {m : SignedMessage} (hm : L.Signed m)
    (hsecret : m.secret = "whsec") :
    SignatureUnforged (Adapters.exampleHmac exampleMessage.text) L .customWebhook
      ⟨"", some "whsec", none⟩ (customRequest m) := by
  intro secret timestamp signature hpresent htimestamp _ _
  have hname : lowerName "X-Vynor-Timestamp" = lowerName "x-vynor-timestamp" := by decide
  have hread : readHeader (customRequest m).headers "x-vynor-timestamp" = some m.timestamp := by
    simp [readHeader, customRequest, hname, HeaderValue.first]
  rw [hread, Option.some.injEq] at htimestamp
  cases hpresent
  exact ⟨m, hm, hsecret, by rw [← htimestamp]; rfl⟩

theorem honest_customEvents : (exampleIngress exampleMessage.text).machine.Along
    (exampleIngress exampleMessage.text).Honest (exampleInit exampleCustom) customEvents := by
  have hhonest : ∀ w : Site, w.channels.rows = [exampleCustom] → ∀ m, w.ledger.Signed m →
      m.secret = "whsec" → ∀ channel ∈ w.channels.rows, ∀ secrets,
        channel.secrets = some secrets → SignatureUnforged
          (Adapters.exampleHmac exampleMessage.text) w.ledger channel.provider secrets
            (customRequest m) := by
    intro w hrows m hm hsecret channel hchannel secrets hsecrets
    rw [hrows] at hchannel
    rw [List.mem_singleton.mp hchannel] at hsecrets ⊢
    cases hsecrets
    exact unforged_customRequest hm hsecret
  intro w1 h1
  cases h1
  refine ⟨trivial, fun w2 h2 => ?_⟩
  cases h2
  refine ⟨trivial, fun w3 h3 => ⟨?_, fun w4 _ => ⟨?_, fun w5 _ => ⟨trivial, trivial⟩⟩⟩⟩
  · exact hhonest _ rfl _ (Or.inr ⟨examplePing, List.mem_cons_self, rfl⟩) rfl
  · obtain ⟨hchannels, hledger⟩ := frame_receive h3
    refine hhonest w3 (by rw [hchannels]; rfl) _ (Or.inl ?_) rfl
    rw [hledger]
    exact List.mem_cons_self

/-- The event that is journaled stands in a body that LINE signed, and for the Custom
API in the message of the customer. -/
theorem events_signed :
    (∃ row ∈ (siteAfter exampleBody exampleLine lineEvents).journal.events.rows,
      ∃ task : Task, task.webhook.Files row ∧
        Authentic (siteAfter exampleBody exampleLine lineEvents).ledger task.channel.provider
          task.secrets task.receivedAt task.request) ∧
      ∃ row ∈ (siteAfter exampleMessage.text exampleCustom customEvents).journal.events.rows,
        ∃ task : Task, task.webhook.Files row ∧
          Authentic (siteAfter exampleMessage.text exampleCustom customEvents).ledger
            task.channel.provider task.secrets task.receivedAt task.request := by
  have hline : (siteAfter exampleBody exampleLine lineEvents).journal.events.rows.length = 1 := by
    decide +kernel
  have hcustom : (siteAfter exampleMessage.text exampleCustom customEvents
      ).journal.events.rows.length = 1 := by
    have hrows := rows_customEvents
    rwa [run_customEvents, Option.map_some, Option.some.injEq] at hrows
  obtain ⟨row, hrow⟩ := List.length_eq_one_iff.mp hline
  obtain ⟨row', hrow'⟩ := List.length_eq_one_iff.mp hcustom
  refine ⟨⟨row, by rw [hrow]; exact List.mem_cons_self, ?_⟩,
    ⟨row', by rw [hrow']; exact List.mem_cons_self, ?_⟩⟩
  · rcases journaled_of_signed honest_lineEvents run_lineEvents row
        (by rw [hrow]; exact List.mem_cons_self) with
      hinitial | ⟨d, task, htask, hfiles, _, _, _, hauthentic⟩
    · cases hinitial
    · exact ⟨task, hfiles, hauthentic⟩
  · rcases journaled_of_signed honest_customEvents run_customEvents row'
        (by rw [hrow']; exact List.mem_cons_self) with
      hinitial | ⟨d, task, htask, hfiles, _, _, _, hauthentic⟩
    · cases hinitial
    · exact ⟨task, hfiles, hauthentic⟩

end Vynor.Webhooks
