import Vynor.Conversations.Ingest
import Vynor.Delivery.Errors
import Vynor.Journal.Events

/-!
# Processing a provider event

`InboundProcessorService.process` on the table `provider_events`.  A run is cut
at its awaits.  It reads its event once, and everything it does later rests on
what it read: whether the event is finished, and how many attempts were counted.
Its status writes go by the id alone.

A run that meets a deleted channel writes `IGNORED` and returns.  Otherwise it
writes `PROCESSING`, normalizes the payload and handles the results in order.
An error there, or in the write that follows, leads to the `catch` block, which
writes `RECEIVED` and throws where a retry may help, and writes `FAILED` and
returns where it cannot.  A write outside the `try` block, or in the `catch`
block, that fails rejects the run.
-/

namespace Vynor.Inbound

open Lib (Table)
open Journal (ProviderEvent ProviderEventStatus EventKey)
open Conversations (InboundMessage)

/-- The table `provider_events`. -/
abbrev ProviderEvents := Table ProviderEvent ProviderEvent.keys

/-- A provider event found under an id has that id. -/
theorem id_of_find? {t : ProviderEvents} {id : Id} {e : ProviderEvent}
    (h : t.find? (.id id) = some e) : e.id = id :=
  ProviderEvent.id_mem_keys.mp (Table.find?_eq_some.mp h).2

/-! ## Statements -/

/-- `processedAt` after a status was written. -/
def processedAfter (newStatus : ProviderEventStatus) (now : Date) (before : Option Date) :
    Option Date :=
  if newStatus = .processed then some now else before

/-- The `SET` of `transitionProviderEventStatus`.  `lastError` is the new text,
or the null that clears it, where the caller gives one. -/
def transitioned (newStatus : ProviderEventStatus) (lastError : Option (Option String))
    (incrementAttempts : Bool) (now : Date) (e : ProviderEvent) : ProviderEvent :=
  { e with
    status := newStatus
    processedAt := processedAfter newStatus now e.processedAt
    lastError := lastError.getD e.lastError
    processingAttempts :=
      if incrementAttempts then e.processingAttempts + 1 else e.processingAttempts }

theorem keys_transitioned (newStatus : ProviderEventStatus) (lastError : Option (Option String))
    (incrementAttempts : Bool) (now : Date) (e : ProviderEvent) :
    (transitioned newStatus lastError incrementAttempts now e).keys = e.keys := rfl

/-- `transitionProviderEventStatus`.  It throws where there is no such event. -/
def transitionProviderEventStatus (t : ProviderEvents) (eventId : Id)
    (newStatus : ProviderEventStatus) (lastError : Option (Option String))
    (incrementAttempts : Bool) (now : Date) : Option ProviderEvents :=
  if (t.find? (.id eventId)).isSome then
    some (t.updateMany (fun e => e.id = eventId)
      (transitioned newStatus lastError incrementAttempts now)
      (keys_transitioned newStatus lastError incrementAttempts now))
  else none

/-- The `SET` of `replayProviderEvent`. -/
def replayed (e : ProviderEvent) : ProviderEvent :=
  { e with status := .received, lastError := none }

theorem keys_replayed (e : ProviderEvent) : (replayed e).keys = e.keys := rfl

/-- `ReplayProviderEventResult`. -/
structure ReplayProviderEventResult where
  eventId : Id
  previousStatus : ProviderEventStatus
  newStatus : ProviderEventStatus
  replayedAt : Date
deriving DecidableEq, Repr

/-- `replayProviderEvent`.  It throws where there is no such event, and it
enqueues nothing. -/
def replayProviderEvent (t : ProviderEvents) (eventId : Id) (now : Date) :
    Option (ReplayProviderEventResult × ProviderEvents) :=
  (t.find? (.id eventId)).map fun existing =>
    (⟨eventId, existing.status, (replayed existing).status, now⟩,
      t.updateMany (fun e => e.id = eventId) replayed keys_replayed)

/-! ## A run -/

/-- The statuses in which `process` returns at once. -/
def finished : ProviderEventStatus → Bool
  | .processed => true
  | .ignored => true
  | _ => false

/-- `RECEIPT_MATCH_ATTEMPTS`. -/
def RECEIPT_MATCH_ATTEMPTS : Nat := 4

/-- A result of `normalizeInbound`. -/
inductive InboundResult where
  | message (data : InboundMessage)
  | deliveryReceipt (data : DeliveryReceipt)
  | ignored (reason : String)
deriving DecidableEq, Repr

/-- What the `try` block can catch. -/
inductive ProcessError where
  | receiptNotYetMatchable (providerMessageId : String)
  | provider (error : Delivery.ChannelProviderError)
  | other (message : String)
deriving DecidableEq, Repr

/-- The message of an error. -/
def ProcessError.message : ProcessError → String
  | .receiptNotYetMatchable providerMessageId =>
      "No outbound message with provider ID " ++ providerMessageId ++ " yet."
  | .provider error => error.message
  | .other message => message

/-- `retry` of the `catch` block. -/
def ProcessError.retry : ProcessError → Bool
  | .receiptNotYetMatchable _ => true
  | .provider error => error.retryable
  | .other _ => true

/-- What the loop over the results has counted. -/
structure Tally where
  handled : Nat := 0
  messagesStored : Nat := 0
  ignored : List String := []
deriving DecidableEq, Repr

/-- The status after the loop. -/
def Tally.outcome (tally : Tally) : ProviderEventStatus :=
  if 0 < tally.handled ∨ tally.ignored = [] then .processed else .ignored

/-- `lastError` after the loop. -/
def Tally.lastError (tally : Tally) : Option String :=
  if tally.ignored = [] then none else some (" ".intercalate tally.ignored)

/-- The loop after a message that was stored. -/
def Tally.store (tally : Tally) : Tally :=
  { tally with handled := tally.handled + 1, messagesStored := tally.messagesStored + 1 }

/-- The loop after a receipt that was applied. -/
def Tally.apply (tally : Tally) : Tally := { tally with handled := tally.handled + 1 }

/-- The loop after a result that is passed over. -/
def Tally.ignore (tally : Tally) (reason : String) : Tally :=
  { tally with ignored := tally.ignored ++ [reason] }

/-- Where a run stands. -/
inductive Stage where
  | idle
  | starting (eventId : Id)
  | discarding (event : ProviderEvent)
  | claiming (event : ProviderEvent)
  | normalizing (event : ProviderEvent)
  | handling (event : ProviderEvent) (rest : List InboundResult) (tally : Tally)
  | settling (event : ProviderEvent) (tally : Tally)
  | catching (event : ProviderEvent) (error : ProcessError)
  | returned
  | threw
  | crashed
deriving DecidableEq, Repr

/-- The event as a run has read it. -/
def Stage.event? : Stage → Option ProviderEvent
  | .discarding event => some event
  | .claiming event => some event
  | .normalizing event => some event
  | .handling event _ _ => some event
  | .settling event _ => some event
  | .catching event _ => some event
  | _ => none

/-- The event a run is about. -/
def Stage.eventId? : Stage → Option Id
  | .starting eventId => some eventId
  | stage => stage.event?.map ProviderEvent.id

/-- The status the next write of a run sets, and the point it then reaches. -/
def Stage.write? : Stage → Option (ProviderEvent × ProviderEventStatus × Stage)
  | .discarding event => some (event, .ignored, .returned)
  | .claiming event => some (event, .processing, .normalizing event)
  | .settling event tally => some (event, tally.outcome, .returned)
  | .catching event error =>
      some (event, if error.retry then .received else .failed,
        if error.retry then .threw else .returned)
  | _ => none

/-- The error text the next write of a run sets. -/
def Stage.lastError : Stage → Option (Option String)
  | .discarding _ => some (some "Channel was deleted.")
  | .settling _ tally => some tally.lastError
  | .catching _ error => some (some error.message)
  | _ => none

/-- The next write of a run counts an attempt. -/
def Stage.incrementAttempts : Stage → Bool
  | .claiming _ => true
  | _ => false

/-- The point a run reaches when it has read its event. -/
def afterRead (deleted : Bool) : Option ProviderEvent → Stage
  | none => .returned
  | some event =>
      if finished event.status then .returned
      else if deleted then .discarding event
      else .claiming event

/-- The point a run reaches when a receipt matches no message.
`processingAttempts` was read before this attempt was counted. -/
def afterUnmatched (event : ProviderEvent) (receipt : DeliveryReceipt) (rest : List InboundResult)
    (tally : Tally) : Stage :=
  if event.processingAttempts + 1 < RECEIPT_MATCH_ATTEMPTS then
    .catching event (.receiptNotYetMatchable receipt.providerMessageId)
  else .handling event rest (tally.ignore "Receipt for a message VYNOR did not send.")

/-- What the services and the adapter answer at an await, apart from the status
writes. -/
inductive Answer where
  | normalized (results : List InboundResult)
  | resolves
  | unmatched
  | throws (error : ProcessError)
deriving DecidableEq, Repr

/-- A point inside the `try` block, before the last write, after an answer. -/
def afterAnswer : Stage → Answer → Option Stage
  | .normalizing event, .normalized results => some (.handling event results {})
  | .normalizing event, .throws error => some (.catching event error)
  | .handling event (.message _ :: rest) tally, .resolves =>
      some (.handling event rest tally.store)
  | .handling event (.message _ :: _) _, .throws error => some (.catching event error)
  | .handling event (.deliveryReceipt _ :: rest) tally, .resolves =>
      some (.handling event rest tally.apply)
  | .handling event (.deliveryReceipt receipt :: rest) tally, .unmatched =>
      some (afterUnmatched event receipt rest tally)
  | .handling event (.deliveryReceipt _ :: _) _, .throws error => some (.catching event error)
  | .handling event (.ignored reason :: rest) tally, .resolves =>
      some (.handling event rest (tally.ignore reason))
  | .handling event [] tally, .resolves => some (.settling event tally)
  | _, _ => none

/-- The point a run reaches when an await that is no answer of these throws: the
read, or a status write. -/
def afterThrow : Stage → ProcessError → Option Stage
  | .starting _, _ => some .threw
  | .discarding _, _ => some .threw
  | .claiming _, _ => some .threw
  | .settling event _, error => some (.catching event error)
  | .catching _ _, _ => some .threw
  | _, _ => none

/-! ## What is known of a step of a run -/

/-- The status of an event. -/
def statusOf? (t : ProviderEvents) (id : Id) : Option ProviderEventStatus :=
  (t.find? (.id id)).map ProviderEvent.status

theorem statusOf?_of_find? {t : ProviderEvents} {id : Id} {e : ProviderEvent}
    (h : t.find? (.id id) = some e) : statusOf? t id = some e.status := by
  rw [statusOf?, h, Option.map_some]

/-- An update of one event by an update that sets its status. -/
theorem statusOf?_updateMany {t : ProviderEvents} {eventId : Id} (f : ProviderEvent → ProviderEvent)
    {hf : ∀ e, (f e).keys = e.keys} {newStatus : ProviderEventStatus}
    (hset : ∀ e, (f e).status = newStatus) (hsome : (t.find? (.id eventId)).isSome = true) (id : Id) :
    statusOf? (t.updateMany (fun e => e.id = eventId) f hf) id
      = if id = eventId then some newStatus else statusOf? t id := by
  unfold statusOf?
  rw [Table.find?_updateMany]
  cases hfind : t.find? (.id id) with
  | none =>
      have hne : id ≠ eventId := by
        rintro rfl
        rw [hfind] at hsome
        cases hsome
      simp [hne]
  | some e =>
      have hid := id_of_find? hfind
      by_cases heq : id = eventId
      · simp [hid, heq, hset]
      · simp [hid, heq]

/-- A status write changes the status of its event and of no other. -/
theorem statusOf?_transition {t t' : ProviderEvents} {eventId : Id}
    {newStatus : ProviderEventStatus} {lastError : Option (Option String)}
    {incrementAttempts : Bool} {now : Date}
    (h : transitionProviderEventStatus t eventId newStatus lastError incrementAttempts now = some t')
    (id : Id) :
    statusOf? t' id = if id = eventId then some newStatus else statusOf? t id := by
  unfold transitionProviderEventStatus at h
  split at h
  next hsome =>
    cases h
    exact statusOf?_updateMany (transitioned newStatus lastError incrementAttempts now)
      (fun _ => rfl) hsome id
  · cases h

/-- A status write that succeeds finds its event. -/
theorem isSome_of_transition {t t' : ProviderEvents} {eventId : Id}
    {newStatus : ProviderEventStatus} {lastError : Option (Option String)}
    {incrementAttempts : Bool} {now : Date}
    (h : transitionProviderEventStatus t eventId newStatus lastError incrementAttempts now = some t') :
    (statusOf? t eventId).isSome = true := by
  unfold transitionProviderEventStatus at h
  split at h
  next hsome =>
    rw [statusOf?, Option.isSome_map, hsome]
  · cases h

/-- A replay makes its event `RECEIVED`, and changes no other. -/
theorem statusOf?_replay {t t' : ProviderEvents} {eventId : Id} {now : Date}
    {r : ReplayProviderEventResult} (h : replayProviderEvent t eventId now = some (r, t')) (id : Id) :
    statusOf? t' id = if id = eventId then some .received else statusOf? t id := by
  obtain ⟨existing, hfind, heq⟩ := Option.map_eq_some_iff.mp h
  cases heq
  exact statusOf?_updateMany replayed (fun _ => rfl) (by rw [hfind]; rfl) id

/-- A replay neither adds nor removes an event. -/
theorem isSome_statusOf?_replay {t t' : ProviderEvents} {eventId : Id} {now : Date}
    {r : ReplayProviderEventResult} (h : replayProviderEvent t eventId now = some (r, t')) (id : Id) :
    (statusOf? t' id).isSome = (statusOf? t id).isSome := by
  rw [statusOf?_replay h]
  by_cases hid : id = eventId
  · obtain ⟨existing, hfind, _⟩ := Option.map_eq_some_iff.mp h
    rw [if_pos hid, hid, statusOf?_of_find? hfind]
    rfl
  · rw [if_neg hid]

/-- A journaled event adds its status, and changes no other. -/
theorem statusOf?_insert {t t' : ProviderEvents} {event : ProviderEvent}
    (h : t.insert? event = some t') (id : Id) :
    statusOf? t' id = if id = event.id then some event.status else statusOf? t id := by
  unfold statusOf?
  rw [Table.find?_of_insert? h]
  by_cases heq : id = event.id
  · simp [heq]
  · simp [heq, Ne.symm heq]

/-- An event that can be journaled is not there yet. -/
theorem statusOf?_of_insert_new {t t' : ProviderEvents} {event : ProviderEvent}
    (h : t.insert? event = some t') : statusOf? t event.id = none := by
  have hfree := (Table.insert?_eq_some.mp h).1
  rw [statusOf?, Table.free_iff_find?_eq_none.mp hfree _ (ProviderEvent.id_mem_keys.mpr rfl),
    Option.map_none]

/-- A run returns from its read, or goes on with an event that is not finished. -/
theorem afterRead_cases (deleted : Bool) (found : Option ProviderEvent) :
    (afterRead deleted found = .returned ∧ ∀ e, found = some e → finished e.status = true) ∨
      ∃ e, found = some e ∧ finished e.status = false ∧
        (afterRead deleted found = .discarding e ∨ afterRead deleted found = .claiming e) := by
  cases found with
  | none => exact Or.inl ⟨rfl, by simp⟩
  | some e =>
      by_cases hfin : finished e.status = true
      · refine Or.inl ⟨if_pos hfin, ?_⟩
        intro e' he'
        cases he'
        exact hfin
      · refine Or.inr ⟨e, rfl, by simpa using hfin, ?_⟩
        cases deleted <;> simp [afterRead, hfin]

/-- A run that goes on after its read has read an event that is not finished. -/
theorem of_event?_afterRead {deleted : Bool} {found : Option ProviderEvent} {event : ProviderEvent}
    (h : (afterRead deleted found).event? = some event) :
    found = some event ∧ finished event.status = false := by
  rcases afterRead_cases deleted found with ⟨hr, _⟩ | ⟨e, hfound, hopen, hr | hr⟩ <;> rw [hr] at h
  · cases h
  · cases h
    exact ⟨hfound, hopen⟩
  · cases h
    exact ⟨hfound, hopen⟩

theorem eventId?_of_event? {stage : Stage} {event : ProviderEvent} (h : stage.event? = some event) :
    stage.eventId? = some event.id := by
  cases stage <;> simp_all [Stage.event?, Stage.eventId?]

/-- An answer takes a run on with its event: through the results, to the last
write or into the `catch` block. -/
theorem afterAnswer_cases {stage stage' : Stage} {answer : Answer}
    (h : afterAnswer stage answer = some stage') :
    ∃ event, stage.event? = some event ∧
      ((∃ results tally, stage' = .handling event results tally) ∨
        (∃ error, stage' = .catching event error) ∨ ∃ tally, stage' = .settling event tally) := by
  rw [afterAnswer.eq_def] at h
  split at h
  next event results =>
    cases h
    exact ⟨event, rfl, .inl ⟨_, _, rfl⟩⟩
  next event error =>
    cases h
    exact ⟨event, rfl, .inr (.inl ⟨_, rfl⟩)⟩
  next event data rest tally =>
    cases h
    exact ⟨event, rfl, .inl ⟨_, _, rfl⟩⟩
  next event data rest tally error =>
    cases h
    exact ⟨event, rfl, .inr (.inl ⟨_, rfl⟩)⟩
  next event receipt rest tally =>
    cases h
    exact ⟨event, rfl, .inl ⟨_, _, rfl⟩⟩
  next event receipt rest tally =>
    cases h
    rw [afterUnmatched]
    split
    · exact ⟨event, rfl, .inr (.inl ⟨_, rfl⟩)⟩
    · exact ⟨event, rfl, .inl ⟨_, _, rfl⟩⟩
  next event receipt rest tally error =>
    cases h
    exact ⟨event, rfl, .inr (.inl ⟨_, rfl⟩)⟩
  next event reason rest tally =>
    cases h
    exact ⟨event, rfl, .inl ⟨_, _, rfl⟩⟩
  next event tally =>
    cases h
    exact ⟨event, rfl, .inr (.inr ⟨_, rfl⟩)⟩
  next => cases h

/-- An answer leaves a run at its event. -/
theorem event?_afterAnswer {stage stage' : Stage} {answer : Answer}
    (h : afterAnswer stage answer = some stage') :
    stage'.event? = stage.event? ∧ stage'.eventId? = stage.eventId? := by
  obtain ⟨event, hevent, hto⟩ := afterAnswer_cases h
  rw [hevent, eventId?_of_event? hevent]
  obtain ⟨results, tally, rfl⟩ | ⟨error, rfl⟩ | ⟨tally, rfl⟩ := hto
  · exact ⟨rfl, rfl⟩
  · exact ⟨rfl, rfl⟩
  · exact ⟨rfl, rfl⟩

/-- The event of a write is the event of the run. -/
theorem event?_of_write? {stage stage' : Stage} {event : ProviderEvent}
    {status : ProviderEventStatus} (h : stage.write? = some (event, status, stage')) :
    stage.event? = some event := by
  cases stage <;> simp_all [Stage.write?, Stage.event?]

/-- A write leaves a run at its event, or ends it. -/
theorem event?_after_write? {stage stage' : Stage} {event : ProviderEvent}
    {status : ProviderEventStatus} (h : stage.write? = some (event, status, stage')) :
    stage'.event? = some event ∨ stage'.event? = none ∧ stage'.eventId? = none := by
  cases stage with
  | discarding | settling =>
      cases h
      exact Or.inr ⟨rfl, rfl⟩
  | claiming =>
      cases h
      exact Or.inl rfl
  | catching event' error =>
      cases h
      right
      split <;> exact ⟨rfl, rfl⟩
  | _ => cases h

/-- A run that returns after a write leaves its event in a status that is
neither `RECEIVED` nor `PROCESSING`. -/
theorem status_of_write?_returned {stage : Stage} {event : ProviderEvent}
    {status : ProviderEventStatus} (h : stage.write? = some (event, status, .returned)) :
    status ≠ .received ∧ status ≠ .processing := by
  cases stage with
  | discarding event =>
      cases h
      exact ⟨by simp, by simp⟩
  | settling event tally =>
      cases h
      unfold Tally.outcome
      split <;> exact ⟨by simp, by simp⟩
  | catching event error =>
      cases hretry : error.retry with
      | false =>
          simp only [Stage.write?, hretry] at h
          cases h
          exact ⟨by simp, by simp⟩
      | true =>
          simp only [Stage.write?, hretry] at h
          cases h
  | _ => cases h

end Vynor.Inbound
