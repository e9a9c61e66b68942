import Vynor.Basic
import Vynor.Lib.Table

/-!
# Outbox events and their statements

The table `outbox_events` and the SQL statements that read or write it:
`createOutboxEvent`, `claimPendingOutboxEvents`, the two statements of
`recoverExpiredOutboxLeases`, the completing and the failing update of
`pollAndDispatch`, and `releaseUnattempted`.  Each statement is atomic, so each
is one function on the table.

A claim leaves two things to the database: which of the due rows are locked by
a concurrent claim and therefore skipped, and in which order the claimed rows
come back.  Both are arguments here, and `Claimable` says which answers the
statement can give.

Every statement but the insert is an `updateMany`, so what it does to one row
follows from `Table.find?_updateMany`: either the condition selects the row and
the row is rewritten, or it is left alone.
-/

namespace Vynor.Outbox

open Lib (Table)

/-- `OutboxEventStatus`. -/
inductive Status where
  | pending
  | processing
  | completed
  | failed
  | deadLetter
deriving DecidableEq, Repr

/-- The statuses no further dispatch is meant to leave. -/
def Status.terminal : Status → Bool
  | .completed => true
  | .deadLetter => true
  | _ => false

/-- A row of `outbox_events`. -/
structure OutboxEvent where
  id : Id
  workspaceId : Id
  eventType : String
  payload : Payload
  correlationId : Option String
  causationId : Option String := none
  actorId : Option Id := none
  traceparent : Option String := none
  status : Status := .pending
  retryCount : Nat := 0
  lastError : Option String := none
  claimedAt : Option Date := none
  claimLeaseExpiresAt : Option Date := none
  claimedBy : Option String := none
  dispatchedAt : Option Date := none
  scheduledAt : Date
  processedAt : Option Date := none
deriving DecidableEq, Repr

/-- The unique indexes of `outbox_events`: the primary key. -/
def OutboxEvent.keys (e : OutboxEvent) : List Id := [e.id]

/-- The table `outbox_events`. -/
abbrev Events := Table OutboxEvent OutboxEvent.keys

/-! ## Constants -/

/-- Events one poll claims at most. -/
def CLAIM_BATCH_SIZE : Nat := 50

/-- The lease of a claim in milliseconds (`CLAIM_LEASE_SECONDS = 60`). -/
def CLAIM_LEASE_MS : Date := 60 * 1000

/-- Dispatch attempts before an event is moved to `DEAD_LETTER`. -/
def MAX_DISPATCH_ATTEMPTS : Nat := 5

/-! ## The statements -/

/-- `CreateOutboxEventParams`. -/
structure CreateOutboxEventParams where
  workspaceId : Id
  eventType : String
  payload : Payload
  correlationId : String
  causationId : Option String := none
  actorId : Option Id := none
  traceparent : Option String := none
  scheduledAt : Option Date := none

/-- The row `createOutboxEvent` inserts, under a generated id.  An empty string
is falsy, so such a causation, actor or trace is left null. -/
def newOutboxEvent (id : Id) (now : Date) (params : CreateOutboxEventParams) : OutboxEvent where
  id := id
  workspaceId := params.workspaceId
  eventType := params.eventType
  payload := params.payload
  correlationId := some params.correlationId
  causationId := truthy params.causationId
  actorId := truthy params.actorId
  traceparent := truthy params.traceparent
  scheduledAt := params.scheduledAt.getD now

/-- `createOutboxEvent`. -/
def createOutboxEvent (t : Events) (id : Id) (now : Date) (params : CreateOutboxEventParams) :
    Option Events :=
  t.insert? (newOutboxEvent id now params)

/-- A row the inner `SELECT` of a claim may return. -/
def OutboxEvent.due (e : OutboxEvent) (now : Date) : Bool :=
  e.status = .pending && e.scheduledAt ≤ now

/-- The row is due and no concurrent claim holds it. -/
def Pickable (t : Events) (now : Date) (locked : List Id) (id : Id) : Prop :=
  id ∉ locked ∧ ∃ e ∈ t.rows, e.id = id ∧ e.due now = true

/-- The limit is reached by rows scheduled no later than `e`. -/
def PassedOver (t : Events) (limit : Nat) (picked : List Id) (e : OutboxEvent) : Prop :=
  picked.length = limit ∧ ∀ a ∈ t.rows, a.id ∈ picked → a.scheduledAt ≤ e.scheduledAt

instance (t : Events) (now : Date) (locked : List Id) (id : Id) :
    Decidable (Pickable t now locked id) := inferInstanceAs (Decidable (_ ∧ _))

instance (t : Events) (limit : Nat) (picked : List Id) (e : OutboxEvent) :
    Decidable (PassedOver t limit picked e) := inferInstanceAs (Decidable (_ ∧ _))

/-- `SELECT … ORDER BY scheduled_at LIMIT … FOR UPDATE SKIP LOCKED` can pick
these rows, in this order. -/
def Claimable (t : Events) (now : Date) (limit : Nat) (locked picked : List Id) : Prop :=
  picked.Nodup ∧ picked.length ≤ limit ∧ (∀ id ∈ picked, Pickable t now locked id) ∧
    ∀ e ∈ t.rows, e.due now = true → e.id ∉ locked → e.id ∉ picked → PassedOver t limit picked e

instance (t : Events) (now : Date) (limit : Nat) (locked picked : List Id) :
    Decidable (Claimable t now limit locked picked) :=
  inferInstanceAs (Decidable (_ ∧ _ ∧ _ ∧ _))

/-- The `SET` of a claim. -/
def OutboxEvent.claim (workerId : String) (now : Date) (e : OutboxEvent) : OutboxEvent :=
  { e with
    status := .processing
    claimedBy := some workerId
    claimedAt := some now
    claimLeaseExpiresAt := some (now + CLAIM_LEASE_MS) }

theorem OutboxEvent.keys_claim (workerId : String) (now : Date) (e : OutboxEvent) :
    (OutboxEvent.claim workerId now e).keys = e.keys := rfl

/-- `claimPendingOutboxEvents`: the table after the claim and the rows it
returns, in the order the database returned them. -/
def claimPendingOutboxEvents (t : Events) (workerId : String) (now : Date) (picked : List Id) :
    Events × List OutboxEvent :=
  let t' := t.updateMany (fun e => e.id ∈ picked) (.claim workerId now) (OutboxEvent.keys_claim _ _)
  (t', picked.filterMap t'.find?)

/-- The lease of the row lies in the past.  A null lease compares as unknown. -/
def OutboxEvent.leaseExpired (e : OutboxEvent) (now : Date) : Bool :=
  match e.claimLeaseExpiresAt with
  | some lease => lease < now
  | none => false

/-- `status = 'PROCESSING' AND claim_lease_expires_at < NOW()`. -/
def OutboxEvent.orphaned (e : OutboxEvent) (now : Date) : Bool :=
  e.status = .processing && e.leaseExpired now

/-- The `SET` of the first statement of `recoverExpiredOutboxLeases`. -/
def OutboxEvent.recover (e : OutboxEvent) : OutboxEvent :=
  { e with
    status := .pending
    claimedBy := none
    claimedAt := none
    claimLeaseExpiresAt := none
    retryCount := e.retryCount + 1
    lastError := some "Lease expired without completion (worker recovery)" }

theorem OutboxEvent.keys_recover (e : OutboxEvent) : e.recover.keys = e.keys := rfl

/-- The first statement of `recoverExpiredOutboxLeases`. -/
def recoverExpired (t : Events) (now : Date) (maxRetries : Nat) : Events :=
  t.updateMany (fun e => e.orphaned now && e.retryCount < maxRetries) .recover OutboxEvent.keys_recover

/-- The `SET` of the second statement of `recoverExpiredOutboxLeases`. -/
def OutboxEvent.bury (e : OutboxEvent) : OutboxEvent :=
  { e with
    status := .deadLetter
    claimedBy := none
    claimLeaseExpiresAt := none
    lastError := some "Exceeded maximum retries upon lease expiration" }

theorem OutboxEvent.keys_bury (e : OutboxEvent) : e.bury.keys = e.keys := rfl

/-- The second statement of `recoverExpiredOutboxLeases`. -/
def deadLetterExpired (t : Events) (now : Date) (maxRetries : Nat) : Events :=
  t.updateMany (fun e => e.orphaned now && maxRetries ≤ e.retryCount) .bury OutboxEvent.keys_bury

/-- The `SET` of the completing update. -/
def OutboxEvent.complete (processedAt dispatchedAt : Date) (e : OutboxEvent) : OutboxEvent :=
  { e with
    status := .completed
    processedAt := some processedAt
    dispatchedAt := some dispatchedAt
    claimLeaseExpiresAt := none }

theorem OutboxEvent.keys_complete (processedAt dispatchedAt : Date) (e : OutboxEvent) :
    (OutboxEvent.complete processedAt dispatchedAt e).keys = e.keys := rfl

/-- The completing update of `pollAndDispatch`.  Its condition is the id alone. -/
def markCompleted (t : Events) (eventId : Id) (processedAt dispatchedAt : Date) : Events :=
  t.updateMany (fun e => e.id = eventId) (.complete processedAt dispatchedAt)
    (OutboxEvent.keys_complete _ _)

/-- The claimed event has used its last attempt once this one failed. -/
def OutboxEvent.exhausted (event : OutboxEvent) : Bool :=
  MAX_DISPATCH_ATTEMPTS ≤ event.retryCount + 1

/-- The status the failing update writes, decided on the event as it was
claimed. -/
def OutboxEvent.failedStatus (event : OutboxEvent) : Status :=
  if event.exhausted then .deadLetter else .pending

/-- The `SET` of the failing update. -/
def OutboxEvent.fail (status : Status) (errorMessage : String) (e : OutboxEvent) : OutboxEvent :=
  { e with
    status := status
    retryCount := e.retryCount + 1
    lastError := some errorMessage
    claimLeaseExpiresAt := none }

theorem OutboxEvent.keys_fail (status : Status) (errorMessage : String) (e : OutboxEvent) :
    (OutboxEvent.fail status errorMessage e).keys = e.keys := rfl

/-- The failing update of `pollAndDispatch`.  Its condition is the id alone. -/
def markFailed (t : Events) (event : OutboxEvent) (errorMessage : String) : Events :=
  t.updateMany (fun e => e.id = event.id) (.fail event.failedStatus errorMessage)
    (OutboxEvent.keys_fail _ _)

/-- The row is one of these events and still claimed by the worker. -/
def OutboxEvent.claimHeld (e : OutboxEvent) (workerId : String) (events : List OutboxEvent) :
    Bool :=
  e.id ∈ events.map OutboxEvent.id && e.status = .processing && e.claimedBy = some workerId

/-- The `SET` of `releaseUnattempted`. -/
def OutboxEvent.release (e : OutboxEvent) : OutboxEvent :=
  { e with status := .pending, claimedBy := none, claimedAt := none, claimLeaseExpiresAt := none }

theorem OutboxEvent.keys_release (e : OutboxEvent) : e.release.keys = e.keys := rfl

/-- `releaseUnattempted`.  Unlike the two updates above it only takes back rows
that are still claimed by the worker. -/
def releaseUnattempted (t : Events) (workerId : String) (events : List OutboxEvent) : Events :=
  t.updateMany (fun e => e.claimHeld workerId events) .release OutboxEvent.keys_release

/-! ## What a statement does to one row -/

section Rows

variable {t : Events} {id : Id} {e : OutboxEvent}

theorem find?_claim (workerId : String) (now : Date) (picked : List Id) (h : t.find? id = some e) :
    (claimPendingOutboxEvents t workerId now picked).1.find? id
      = some (if decide (e.id ∈ picked) then e.claim workerId now else e) := by
  rw [claimPendingOutboxEvents, Table.find?_updateMany_of_some h]

theorem find?_recoverExpired (now : Date) (maxRetries : Nat) (h : t.find? id = some e) :
    (recoverExpired t now maxRetries).find? id
      = some (if e.orphaned now && e.retryCount < maxRetries then e.recover else e) := by
  rw [recoverExpired, Table.find?_updateMany_of_some h]

theorem find?_deadLetterExpired (now : Date) (maxRetries : Nat) (h : t.find? id = some e) :
    (deadLetterExpired t now maxRetries).find? id
      = some (if e.orphaned now && maxRetries ≤ e.retryCount then e.bury else e) := by
  rw [deadLetterExpired, Table.find?_updateMany_of_some h]

theorem find?_markCompleted (eventId : Id) (processedAt dispatchedAt : Date)
    (h : t.find? id = some e) :
    (markCompleted t eventId processedAt dispatchedAt).find? id
      = some (if decide (e.id = eventId) then e.complete processedAt dispatchedAt else e) := by
  rw [markCompleted, Table.find?_updateMany_of_some h]

theorem find?_markFailed (event : OutboxEvent) (errorMessage : String) (h : t.find? id = some e) :
    (markFailed t event errorMessage).find? id
      = some (if decide (e.id = event.id) then e.fail event.failedStatus errorMessage else e) := by
  rw [markFailed, Table.find?_updateMany_of_some h]

theorem find?_releaseUnattempted (workerId : String) (events : List OutboxEvent)
    (h : t.find? id = some e) :
    (releaseUnattempted t workerId events).find? id
      = some (if e.claimHeld workerId events then e.release else e) := by
  rw [releaseUnattempted, Table.find?_updateMany_of_some h]

/-- The id of the row found under an id. -/
theorem id_of_find? (h : t.find? id = some e) : e.id = id :=
  (List.mem_singleton.mp (Table.find?_eq_some.mp h).2).symm

/-- Rows with one id are one row. -/
theorem OutboxEvent.eq_of_id {e e' : OutboxEvent} (he : e ∈ t.rows) (he' : e' ∈ t.rows)
    (h : e.id = e'.id) : e = e' :=
  Table.eq_of_shared_key he he' (k := e.id) List.mem_cons_self (List.mem_singleton.mpr h)

/-- A row that lease recovery may take is in `PROCESSING` and its lease is past. -/
theorem OutboxEvent.orphaned_iff {now : Date} :
    e.orphaned now = true ↔
      e.status = .processing ∧ ∃ lease, e.claimLeaseExpiresAt = some lease ∧ lease < now := by
  unfold OutboxEvent.orphaned OutboxEvent.leaseExpired
  cases e.claimLeaseExpiresAt <;> simp

end Rows

end Vynor.Outbox
