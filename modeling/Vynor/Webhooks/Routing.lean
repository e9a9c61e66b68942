import Vynor.Journal.Events
import Vynor.Schema

/-!
# Routing a webhook batch

`WebhookIngestService.route`.  It files each event under the channel its account
belongs to and remembers what it looked up, missing accounts included.  What it
remembers is what a lookup would find again, so the groups are those of `target`.
-/

namespace Vynor.Webhooks

open Lib

/-- `PROVIDER_CHANNEL_TYPES`. -/
def PROVIDER_CHANNEL_TYPES : ChannelProviderType → ChannelType
  | .whatsappCloud => .whatsapp
  | .metaMessenger => .messenger
  | .metaInstagram => .instagram
  | .telegramBot => .telegram
  | .emailSmtpImap => .email
  | .lineMessaging => .line
  | .webchatEmbed => .webchat
  | .customWebhook => .api

/-- The name a provider is stored under. -/
def providerName : ChannelProviderType → String
  | .whatsappCloud => "WHATSAPP_CLOUD"
  | .metaMessenger => "META_MESSENGER"
  | .metaInstagram => "META_INSTAGRAM"
  | .telegramBot => "TELEGRAM_BOT"
  | .emailSmtpImap => "EMAIL_SMTP_IMAP"
  | .lineMessaging => "LINE_MESSAGING"
  | .webchatEmbed => "WEBCHAT_EMBED"
  | .customWebhook => "CUSTOM_WEBHOOK"

/-- A row of `provider_accounts`, as the webhook service reads it.  Its channel
type is the one its provider serves. -/
structure Channel where
  id : Id
  workspaceId : Id
  provider : ChannelProviderType
  accountIdentifier : String
  deletedAt : Option Date := none
deriving DecidableEq, Repr

def Channel.channelType (c : Channel) : ChannelType := PROVIDER_CHANNEL_TYPES c.provider

/-- A key of `provider_accounts`: the primary key, or `(workspaceId,
channelType, accountIdentifier)`. -/
inductive ChannelKey where
  | id (id : Id)
  | account (workspaceId : Id) (channelType : ChannelType) (accountIdentifier : String)
deriving DecidableEq, Repr

def Channel.keys (c : Channel) : List ChannelKey :=
  [.id c.id, .account c.workspaceId c.channelType c.accountIdentifier]

/-- A row of `provider_accounts` with the token in its URLs. -/
structure Account extends Channel where
  webhookKey : Option String
deriving DecidableEq, Repr

/-- The channel of a provider that is found under a token. -/
def findByKey (accounts : List Account) (provider : ChannelProviderType) (webhookKey : String) :
    Option Account :=
  accounts.find? fun account =>
    account.webhookKey = some webhookKey && account.provider = provider && account.deletedAt.isNone

/-- The table `provider_accounts`. -/
abbrev Channels := Table Channel Channel.keys

/-- `ExtractedProviderEvent`. -/
structure ExtractedProviderEvent where
  providerEventKey : String
  isFingerprinted : Bool
  payload : Payload
  routingAccountIdentifier : Option String := none
deriving DecidableEq, Repr

/-- A verified webhook: the channel of its key, and the events of its body. -/
structure Webhook where
  channels : Channels
  channel : Channel
  events : List ExtractedProviderEvent
  mem : channel ∈ channels.rows
  undeleted : channel.deletedAt = none

namespace Webhook

variable (W : Webhook)

/-- The `WHERE` of a sibling. -/
def isSibling (routing : String) (c : Channel) : Bool :=
  c.workspaceId = W.channel.workspaceId && c.provider = W.channel.provider &&
    c.accountIdentifier = routing && c.deletedAt.isNone

/-- The lookup of a sibling. -/
def findSibling (routing : String) : Option Id :=
  (W.channels.rows.find? (W.isSibling routing)).map Channel.id

/-- The loop of `route`, with its two maps. -/
def routeEvents (groups : List (Id × List ExtractedProviderEvent))
    (siblings : List (String × Option Id)) :
    List ExtractedProviderEvent → List (Id × List ExtractedProviderEvent)
  | [] => groups
  | event :: events =>
      match truthy event.routingAccountIdentifier with
      | none => routeEvents (OrderedMap.push groups W.channel.id event) siblings events
      | some routing =>
          if routing = W.channel.accountIdentifier then
            routeEvents (OrderedMap.push groups W.channel.id event) siblings events
          else
            let siblings :=
              if (OrderedMap.get? siblings routing).isNone then
                OrderedMap.set siblings routing (W.findSibling routing)
              else siblings
            match (OrderedMap.get? siblings routing).join with
            | none => routeEvents groups siblings events
            | some targetId => routeEvents (OrderedMap.push groups targetId event) siblings events

/-- `route`. -/
def route : List (Id × List ExtractedProviderEvent) := W.routeEvents [] [] W.events

/-- The channel of an event, looked up each time. -/
def target (event : ExtractedProviderEvent) : Option Id :=
  match truthy event.routingAccountIdentifier with
  | none => some W.channel.id
  | some routing =>
      if routing = W.channel.accountIdentifier then some W.channel.id else W.findSibling routing

/-! ## What is remembered -/

/-- The map of siblings holds what a lookup finds. -/
def Remembers (siblings : List (String × Option Id)) : Prop :=
  ∀ routing found, OrderedMap.get? siblings routing = some found → found = W.findSibling routing

variable {W}

/-- The map after a lookup, and the sibling in it. -/
theorem Remembers.look {siblings : List (String × Option Id)} (h : W.Remembers siblings)
    (routing : String) :
    W.Remembers (if (OrderedMap.get? siblings routing).isNone then
        OrderedMap.set siblings routing (W.findSibling routing) else siblings) ∧
      (OrderedMap.get? (if (OrderedMap.get? siblings routing).isNone then
        OrderedMap.set siblings routing (W.findSibling routing) else siblings) routing).join =
          W.findSibling routing := by
  cases hget : OrderedMap.get? siblings routing with
  | none =>
      rw [Option.isNone_none, if_pos rfl]
      constructor
      · intro routing' found hfound
        rw [OrderedMap.get?_set] at hfound
        split at hfound
        · next heq =>
            cases hfound
            rw [heq]
        · exact h routing' found hfound
      · rw [OrderedMap.get?_set, if_pos rfl, Option.join_some]
  | some found =>
      rw [Option.isNone_some, if_neg Bool.false_ne_true, hget, Option.join_some]
      exact ⟨h, h routing found hget⟩

/-- The loop collects the events under their targets. -/
theorem routeEvents_eq (events : List ExtractedProviderEvent) :
    ∀ (done : List ExtractedProviderEvent) (siblings : List (String × Option Id)),
      W.Remembers siblings →
      W.routeEvents (OrderedMap.groupBy W.target done) siblings events =
        OrderedMap.groupBy W.target (done ++ events) := by
  induction events with
  | nil =>
      intro done siblings _
      rw [routeEvents, List.append_nil]
  | cons event events ih =>
      intro done siblings h
      have hnext := OrderedMap.groupBy_append W.target done event
      have hassoc : done ++ event :: events = (done ++ [event]) ++ events := by simp
      rw [routeEvents, hassoc]
      cases hrouting : truthy event.routingAccountIdentifier with
      | none =>
          have htarget : W.target event = some W.channel.id := by rw [target, hrouting]
          rw [htarget] at hnext
          rw [← ih (done ++ [event]) siblings h, hnext]
      | some routing =>
          by_cases hown : routing = W.channel.accountIdentifier
          · have htarget : W.target event = some W.channel.id := by
              simp only [target, hrouting, hown, if_true]
            rw [htarget] at hnext
            simp only [hown, if_true]
            rw [← ih (done ++ [event]) siblings h, hnext]
          · have htarget : W.target event = W.findSibling routing := by
              simp only [target, hrouting, hown, if_false]
            rw [htarget] at hnext
            obtain ⟨hkept, hfound⟩ := h.look routing
            simp only [hown, if_false]
            rw [hfound, ← ih (done ++ [event]) _ hkept, hnext]
            cases W.findSibling routing with
            | none => rfl
            | some targetId => rfl

/-- The groups of `route` are those of the targets. -/
theorem route_eq_groupBy : W.route = OrderedMap.groupBy W.target W.events := by
  have hnone : W.Remembers [] := fun routing found h => by cases h
  exact routeEvents_eq W.events [] [] hnone

/-! ## Where an event belongs -/

variable (W)

/-- The event belongs to this channel: it has no routing identifier and the
channel is the webhook's own, or it names this undeleted channel of the same
workspace and provider. -/
def BelongsTo (event : ExtractedProviderEvent) (c : Channel) : Prop :=
  match truthy event.routingAccountIdentifier with
  | none => c = W.channel
  | some routing =>
      c.workspaceId = W.channel.workspaceId ∧ c.provider = W.channel.provider ∧
        c.accountIdentifier = routing ∧ c.deletedAt = none

instance (event : ExtractedProviderEvent) (c : Channel) : Decidable (W.BelongsTo event c) := by
  unfold BelongsTo
  split <;> infer_instance

/-- The event belongs to a channel. -/
def Routed (event : ExtractedProviderEvent) : Prop :=
  ∃ c ∈ W.channels.rows, W.BelongsTo event c

instance (event : ExtractedProviderEvent) : Decidable (W.Routed event) :=
  inferInstanceAs (Decidable (∃ c ∈ W.channels.rows, W.BelongsTo event c))

variable {W}

theorem isSibling_iff {routing : String} {c : Channel} : W.isSibling routing c = true ↔
    c.workspaceId = W.channel.workspaceId ∧ c.provider = W.channel.provider ∧
      c.accountIdentifier = routing ∧ c.deletedAt = none := by
  simp [isSibling, and_assoc]

/-- Two channels of one workspace and provider with one account identifier are
the same. -/
theorem eq_of_account {c c' : Channel} (hc : c ∈ W.channels.rows) (hc' : c' ∈ W.channels.rows)
    (hworkspace : c.workspaceId = c'.workspaceId) (hprovider : c.provider = c'.provider)
    (haccount : c.accountIdentifier = c'.accountIdentifier) : c = c' := by
  refine Table.eq_of_shared_key hc hc'
    (k := .account c.workspaceId c.channelType c.accountIdentifier) ?_ ?_
  · exact List.mem_cons_of_mem _ List.mem_cons_self
  · rw [hworkspace, Channel.channelType, hprovider, haccount]
    exact List.mem_cons_of_mem _ List.mem_cons_self

/-- A lookup finds the sibling. -/
theorem findSibling_eq_some {routing : String} {id : Id} : W.findSibling routing = some id ↔
    ∃ c ∈ W.channels.rows, W.isSibling routing c = true ∧ c.id = id := by
  rw [findSibling, Option.map_eq_some_iff]
  constructor
  · rintro ⟨c, hc, rfl⟩
    exact ⟨c, List.mem_of_find?_eq_some hc, List.find?_some hc, rfl⟩
  · rintro ⟨c, hc, hsibling, rfl⟩
    cases hfind : W.channels.rows.find? (W.isSibling routing) with
    | none => exact absurd hsibling (List.find?_eq_none.mp hfind c hc)
    | some c' =>
        obtain ⟨hworkspace, hprovider, haccount, _⟩ := isSibling_iff.mp hsibling
        obtain ⟨hworkspace', hprovider', haccount', _⟩ := isSibling_iff.mp (List.find?_some hfind)
        have hsame := eq_of_account (List.mem_of_find?_eq_some hfind) hc
          (hworkspace'.trans hworkspace.symm) (hprovider'.trans hprovider.symm)
          (haccount'.trans haccount.symm)
        exact ⟨c', rfl, congrArg Channel.id hsame⟩

/-- The target of an event is the channel it belongs to. -/
theorem target_eq_some {event : ExtractedProviderEvent} {id : Id} : W.target event = some id ↔
    ∃ c ∈ W.channels.rows, W.BelongsTo event c ∧ c.id = id := by
  unfold target BelongsTo
  cases truthy event.routingAccountIdentifier with
  | none =>
      constructor
      · intro h
        exact ⟨W.channel, W.mem, rfl, Option.some.inj h⟩
      · rintro ⟨c, _, rfl, rfl⟩
        rfl
  | some routing =>
      by_cases hown : routing = W.channel.accountIdentifier
      · simp only [hown, if_true]
        constructor
        · intro h
          exact ⟨W.channel, W.mem, ⟨rfl, rfl, rfl, W.undeleted⟩, Option.some.inj h⟩
        · rintro ⟨c, hc, ⟨hworkspace, hprovider, haccount, _⟩, rfl⟩
          rw [eq_of_account hc W.mem hworkspace hprovider haccount]
      · simp only [hown, if_false]
        rw [findSibling_eq_some]
        simp only [isSibling_iff]

/-- An event is routed when it has a target. -/
theorem routed_iff {event : ExtractedProviderEvent} :
    W.Routed event ↔ (W.target event).isSome = true := by
  rw [Option.isSome_iff_exists]
  constructor
  · rintro ⟨c, hc, hbelongs⟩
    exact ⟨c.id, target_eq_some.mpr ⟨c, hc, hbelongs, rfl⟩⟩
  · rintro ⟨id, htarget⟩
    obtain ⟨c, hc, hbelongs, _⟩ := target_eq_some.mp htarget
    exact ⟨c, hc, hbelongs⟩

end Webhook

end Vynor.Webhooks
