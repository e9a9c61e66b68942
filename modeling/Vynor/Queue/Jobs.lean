import Vynor.Basic

/-!
# Job queues, envelopes and job options

The queue names with the retry part of `QUEUE_CONFIGS`, the routing of an
outbox event type to its queue, the envelope a job carries, and the options
`BullMqJobQueue.send` enqueues it under.
-/

namespace Vynor.Queue

/-- `QUEUE_NAMES`. -/
inductive QueueName where
  | messagesOutbound
  | webhooksProcess
  | campaignsDispatch
  | conversationsRoute
  | aiGenerate
  | auditExport
  | maintenanceOutboxPrune
  | maintenanceLeaseRecover
deriving DecidableEq, Repr

/-- The retry profile of a queue in `QUEUE_CONFIGS`. -/
structure QueueOptions where
  retryLimit : Nat
  retryDelaySeconds : Nat

/-- `QUEUE_CONFIGS`. -/
def QUEUE_CONFIGS : QueueName → QueueOptions
  | .messagesOutbound => ⟨5, 5⟩
  | .webhooksProcess => ⟨5, 2⟩
  | .campaignsDispatch => ⟨3, 15⟩
  | .conversationsRoute => ⟨3, 3⟩
  | .aiGenerate => ⟨3, 5⟩
  | .auditExport => ⟨3, 30⟩
  | .maintenanceOutboxPrune => ⟨2, 60⟩
  | .maintenanceLeaseRecover => ⟨2, 10⟩

/-- Event type prefix and the queue that handles it. -/
def QUEUE_BY_EVENT_PREFIX : List (String × QueueName) :=
  [("message.", .messagesOutbound), ("webhook.", .webhooksProcess),
    ("campaign.", .campaignsDispatch), ("conversation.", .conversationsRoute),
    ("ai.", .aiGenerate), ("audit.", .auditExport)]

/-- The queue of an event type, chosen by its case-insensitive prefix. -/
def queueForEventType (eventType : String) : Option QueueName :=
  let lower := eventType.toLower
  (QUEUE_BY_EVENT_PREFIX.find? fun entry => lower.startsWith entry.1).map Prod.snd

/-- `OutboxDispatcherService.queueFor`: unrouted types go to the outbound queue. -/
def queueFor (eventType : String) : QueueName :=
  (queueForEventType eventType).getD .messagesOutbound

example : queueForEventType "Webhook.Received" = some .webhooksProcess := by decide +kernel

/-! ## Envelopes -/

/-- `EventContext`, as far as the dispatcher fills it. -/
structure EventContext where
  correlationId : String
  causationId : Option String
  workspaceId : Id
  actorId : Option Id
  traceparent : Option String
deriving DecidableEq, Repr

/-- `JobEnvelope`. -/
structure JobEnvelope where
  jobId : Id
  queue : QueueName
  version : Nat := 1
  context : EventContext
  attempt : Nat := 1
  maxAttempts : Nat := 5
  enqueuedAt : Date
  payload : Payload
deriving DecidableEq, Repr

/-- `createJobEnvelope`, with the defaults of its optional parameters. -/
def createJobEnvelope (jobId : Id) (queue : QueueName) (context : EventContext) (payload : Payload)
    (now : Date) : JobEnvelope where
  jobId := jobId
  queue := queue
  context := context
  enqueuedAt := now
  payload := payload

/-- `outboxJobKey`. -/
def outboxJobKey (eventId : Id) : String := "outbox-" ++ eventId

/-- Different events have different job keys. -/
theorem outboxJobKey_injective : Function.Injective outboxJobKey := by
  intro a b h
  exact (String.append_right_inj "outbox-").mp h

/-- A job as `BullMqJobQueue.send` enqueues it: its id is the key. -/
structure Job where
  key : String
  envelope : JobEnvelope
deriving DecidableEq, Repr

/-! ## Job options -/

/-- `JobsOptions`, as `jobOptionsFor` fills them.  Delays and ages are in
milliseconds and seconds. -/
structure JobsOptions where
  attempts : Nat
  backoffDelay : Nat
  retentionAge : Nat
  retentionCount : Nat
deriving DecidableEq, Repr

def JOB_RETENTION_SECONDS : Nat := 7 * 24 * 60 * 60

def JOB_RETENTION_COUNT : Nat := 10000

/-- `jobOptionsFor`.  Completed and failed jobs are kept alike. -/
def jobOptionsFor (queue : QueueName) : JobsOptions where
  attempts := (QUEUE_CONFIGS queue).retryLimit + 1
  backoffDelay := (QUEUE_CONFIGS queue).retryDelaySeconds * 1000
  retentionAge := JOB_RETENTION_SECONDS
  retentionCount := JOB_RETENTION_COUNT

end Vynor.Queue
