import Vynor.Lib.OrderedMap
import Vynor.Outbox.Events
import Vynor.Schema

/-!
# Provider events

The table `provider_events`, and the values `journalProviderEvents` takes and
returns.
-/

namespace Vynor.Journal

open Lib (Table)

/-- `ProviderEventStatus`. -/
inductive ProviderEventStatus where
  | received
  | processing
  | processed
  | ignored
  | failed
deriving DecidableEq, Repr

/-- A row of `provider_events`. -/
structure ProviderEvent where
  id : Id
  workspaceId : Id
  providerAccountId : Id
  provider : String
  channelType : ChannelType
  providerEventKey : String
  isFingerprinted : Bool
  payload : Payload
  headers : Option Payload := none
  status : ProviderEventStatus := .received
  processingAttempts : Nat := 0
  lastError : Option String := none
  processedAt : Option Date := none
  retentionDays : Int
  purgeAfter : Date
  correlationId : Option String
deriving DecidableEq, Repr

/-- A key of `provider_events`: the primary key, or `(providerAccountId,
providerEventKey)`. -/
inductive EventKey where
  | id (id : Id)
  | provider (providerAccountId : Id) (providerEventKey : String)
deriving DecidableEq, Repr

def ProviderEvent.keys (e : ProviderEvent) : List EventKey :=
  [.id e.id, .provider e.providerAccountId e.providerEventKey]

@[simp] theorem ProviderEvent.id_mem_keys {e : ProviderEvent} {id : Id} :
    EventKey.id id ∈ e.keys ↔ e.id = id := by
  simp [ProviderEvent.keys, eq_comm]

@[simp] theorem ProviderEvent.provider_mem_keys {e : ProviderEvent} {account : Id} {key : String} :
    EventKey.provider account key ∈ e.keys ↔
      e.providerAccountId = account ∧ e.providerEventKey = key := by
  simp [ProviderEvent.keys, eq_comm]

/-! ## Journaling -/

/-- `JournalEventInput`. -/
structure JournalEventInput where
  providerEventKey : String
  isFingerprinted : Bool
  payload : Payload
  headers : Option Payload := none
deriving DecidableEq, Repr

/-- `JournalProviderEventsParams`. -/
structure JournalProviderEventsParams where
  workspaceId : Id
  providerAccountId : Id
  provider : String
  channelType : ChannelType
  events : List JournalEventInput
  correlationId : String
  retentionDays : Option Int := none
deriving DecidableEq, Repr

/-- `JournalProviderEventsResult`. -/
structure JournalProviderEventsResult where
  acceptedEventIds : List Id
  duplicateCount : Nat
deriving DecidableEq, Repr

/-- The outbox event type of a journaled provider event. -/
def PROVIDER_EVENT_RECEIVED : String := "webhook.received"

/-- The retention of a call, in days. -/
def JournalProviderEventsParams.retention (params : JournalProviderEventsParams) : Int :=
  params.retentionDays.getD 90

/-- `purgeAfter` of a call. -/
def purgeAfter (params : JournalProviderEventsParams) (now : Date) : Date :=
  now + params.retention * 24 * 60 * 60 * 1000

/-- The events of a batch, one for each key: the last one of a key, at the place
of the first. -/
def uniqueEvents (events : List JournalEventInput) : List JournalEventInput :=
  (Lib.OrderedMap.ofPairs (events.map fun e => (e.providerEventKey, e))).map Prod.snd

/-- The row of an event. -/
def newProviderEvent (params : JournalProviderEventsParams) (purgeAfter : Date) (id : Id)
    (event : JournalEventInput) : ProviderEvent where
  id := id
  workspaceId := params.workspaceId
  providerAccountId := params.providerAccountId
  provider := params.provider
  channelType := params.channelType
  providerEventKey := event.providerEventKey
  isFingerprinted := event.isFingerprinted
  payload := event.payload
  headers := event.headers
  status := .received
  retentionDays := params.retention
  purgeAfter := purgeAfter
  correlationId := some params.correlationId

/-- What the outbox row of a journaled event is created with. -/
def receivedParams (params : JournalProviderEventsParams) (providerEventId : Id) :
    Outbox.CreateOutboxEventParams where
  workspaceId := params.workspaceId
  eventType := PROVIDER_EVENT_RECEIVED
  payload := [("providerEventId", providerEventId)]
  correlationId := params.correlationId

/-- The outbox row of a journaled event. -/
def receivedEvent (params : JournalProviderEventsParams) (providerEventId outboxId : Id)
    (now : Date) : Outbox.OutboxEvent :=
  Outbox.newOutboxEvent outboxId now (receivedParams params providerEventId)

/-- The outbox row hands the provider event over for processing. -/
def names (providerEventId : Id) (o : Outbox.OutboxEvent) : Bool :=
  o.eventType = PROVIDER_EVENT_RECEIVED && o.payload.get? "providerEventId" = some providerEventId

@[simp] theorem names_receivedEvent {params : JournalProviderEventsParams}
    {providerEventId outboxId id : Id} {now : Date} :
    names id (receivedEvent params providerEventId outboxId now) = true ↔ providerEventId = id := by
  simp [names, receivedEvent, receivedParams, Outbox.newOutboxEvent, Payload.get?]

/-- Every key of a batch is the key of one of its unique events. -/
theorem exists_uniqueEvent {events : List JournalEventInput} {e : JournalEventInput}
    (he : e ∈ events) :
    ∃ u ∈ uniqueEvents events, u.providerEventKey = e.providerEventKey := by
  have hkey : e.providerEventKey ∈
      (Lib.OrderedMap.ofPairs (events.map fun e => (e.providerEventKey, e))).map Prod.fst := by
    rw [Lib.OrderedMap.mem_keys_ofPairs, List.map_map]
    exact List.mem_map_of_mem (f := fun e => e.providerEventKey) he
  obtain ⟨p, hp, hfst⟩ := List.mem_map.mp hkey
  obtain ⟨e', _, rfl⟩ := List.mem_map.mp (Lib.OrderedMap.mem_of_mem_ofPairs hp)
  exact ⟨e', List.mem_map_of_mem (f := Prod.snd) hp, hfst⟩

theorem mem_of_mem_uniqueEvents {events : List JournalEventInput} {e : JournalEventInput}
    (he : e ∈ uniqueEvents events) : e ∈ events := by
  obtain ⟨p, hp, rfl⟩ := List.mem_map.mp he
  obtain ⟨e', he', rfl⟩ := List.mem_map.mp (Lib.OrderedMap.mem_of_mem_ofPairs hp)
  exact he'

theorem length_uniqueEvents_le (events : List JournalEventInput) :
    (uniqueEvents events).length ≤ events.length := by
  rw [uniqueEvents, List.length_map]
  exact Nat.le_trans (Lib.OrderedMap.length_ofPairs_le _) (Nat.le_of_eq (List.length_map _))

end Vynor.Journal
