import Vynor.Queue.Jobs
import Vynor.Lib.Machine
import Mathlib.Algebra.Group.Nat.Defs
import Mathlib.Logic.Function.Basic

/-!
# The BullMQ transport

`BullMqJobQueue` connects to Redis at boot and, after a failure, again and again
in the background.  Handlers that come before it has connected wait in
`pendingWorkers`.  A shutdown has two parts: `onModuleDestroy` stops sends and
retries, and `beforeApplicationShutdown` closes workers, queues and the producer
connection, one after the other.

An action is one turn of the event loop: a call, or the continuation of one
after an `await`.  An attempt to start is in flight from its first turn to the
one in which it has connected, has failed or has timed out, and has one producer
connection, which has the number of the attempt.  Redis decides what comes next
and when.

The framework calls `onModuleInit` once and before the other hooks, and
`beforeApplicationShutdown` once and after `onModuleDestroy`.
-/

namespace Vynor.Queue.BullMq

open Lib (Machine)

/-- `QUEUE_NAMES`, all of them. -/
def QUEUE_NAMES : List QueueName :=
  [.messagesOutbound, .webhooksProcess, .campaignsDispatch, .conversationsRoute, .aiGenerate,
    .auditExport, .maintenanceOutboxPrune, .maintenanceLeaseRecover]

/-- The value of a queue name. -/
def queueText : QueueName → String
  | .messagesOutbound => "vynor.messages.outbound"
  | .webhooksProcess => "vynor.webhooks.process"
  | .campaignsDispatch => "vynor.campaigns.dispatch"
  | .conversationsRoute => "vynor.conversations.route"
  | .aiGenerate => "vynor.ai.generate"
  | .auditExport => "vynor.audit.export"
  | .maintenanceOutboxPrune => "vynor.maintenance.outbox-prune"
  | .maintenanceLeaseRecover => "vynor.maintenance.lease-recover"

def START_RETRY_BASE_MS : Nat := 5000

def START_RETRY_MAX_MS : Nat := 60000

/-- Delay before the next start attempt after failures in a row. -/
def startRetryDelayMs (failedStarts : Nat) : Nat :=
  min (START_RETRY_BASE_MS * 2 ^ (failedStarts - 1)) START_RETRY_MAX_MS

example : [1, 2, 3, 4, 5, 6].map startRetryDelayMs = [5000, 10000, 20000, 40000, 60000, 60000] := by
  decide

/-- A handler, as it was given to one call of `work`. -/
abbrev HandlerId := Nat

/-- A handler with its queue: a call of `work`, or the worker it led to. -/
structure Registration where
  queue : QueueName
  handler : HandlerId
deriving DecidableEq, Repr

/-- A producer connection, by the number of its start attempt. -/
abbrev ConnectionId := Nat

/-- The fields of `BullMqJobQueue`.  `workers` has no two entries for a queue. -/
structure Service where
  producer : Option ConnectionId := none
  queues : List QueueName := []
  workers : List Registration := []
  pendingWorkers : List Registration := []
  failedStarts : Nat := 0
  retryTimer : Option Nat := none
  probeTimer : Bool := false
  responsive : Bool := false
  probing : Bool := false
  destroyed : Bool := false
deriving DecidableEq, Repr

/-- The errors a `send` rejects with by itself. -/
inductive SendError where
  | notRunning (queue : QueueName)
  | colon (key : String)
  | notStarted
  | failed
deriving DecidableEq, Repr

/-- The texts of these errors; BullMQ's own error is passed on. -/
def SendError.message : SendError → Option String
  | .notRunning queue => some s!"BullMQ is not running; job for {queueText queue} was not enqueued"
  | .colon key => some s!"Job key {key} contains ':', which BullMQ job IDs cannot"
  | .notStarted => some "BullMQ has not started"
  | .failed => none

/-- Where a call of `send` stands. -/
inductive Send where
  | idle
  | adding
  | resolved
  | rejected (error : SendError)
deriving DecidableEq, Repr

/-- Where `beforeApplicationShutdown` stands: what it waits for. -/
inductive Closing where
  | idle
  | workers
  | queues
  | producer (connection : ConnectionId)
  | done
deriving DecidableEq, Repr

/-- The service with its connections and calls.  `isReady` is the status of a
connection that is open.  `registered` and `created` are the history of handlers
and of workers; no call reads them. -/
structure World where
  service : Service
  begun : Nat
  starting : List ConnectionId
  isOpen : ConnectionId → Bool
  isReady : ConnectionId → Bool
  closing : Closing
  sends : Nat → Send
  registered : List Registration
  created : List Registration

def World.init : World where
  service := {}
  begun := 0
  starting := []
  isOpen := fun _ => false
  isReady := fun _ => false
  closing := .idle
  sends := fun _ => .idle
  registered := []
  created := []

/-! ## Methods -/

/-- `isRunning`. -/
def World.isRunning (w : World) : Bool :=
  !w.service.destroyed && w.service.responsive && w.service.producer.any fun c => w.isOpen c && w.isReady c

/-- A connection that is disconnected, or has quit. -/
def World.close (w : World) (c : ConnectionId) : World :=
  { w with isOpen := Function.update w.isOpen c false }

/-- The first turn of `start`, with the producer it creates. -/
def World.start (w : World) : World :=
  { w with
    begun := w.begun + 1
    starting := w.begun :: w.starting
    isOpen := Function.update w.isOpen w.begun true }

/-- `scheduleRetry`. -/
def Service.scheduleRetry (s : Service) (delayMs : Nat) : Service :=
  if s.destroyed then s else { s with retryTimer := some delayMs }

/-- `startWorker`, which throws where the queue has a worker. -/
def World.startWorker (w : World) (r : Registration) : Option World :=
  if w.service.workers.any fun worker => worker.queue = r.queue then none
  else
    some { w with
      service := { w.service with workers := w.service.workers ++ [r] }
      created := w.created ++ [r] }

/-- The loop of `registerPendingWorkers`: an error is logged. -/
def World.startWorkers (w : World) : List Registration → World
  | [] => w
  | r :: rest => ((w.startWorker r).getD w).startWorkers rest

/-- `registerPendingWorkers`. -/
def World.registerPendingWorkers (w : World) : World :=
  { w with service := { w.service with pendingWorkers := [] } }.startWorkers w.service.pendingWorkers

/-- The end of a start attempt that has connected. -/
def World.connected (w : World) (c : ConnectionId) : World :=
  let w := { w with starting := w.starting.erase c }
  if w.service.destroyed then w.close c
  else
    { w with
      service := { w.service with
        producer := some c
        queues := QUEUE_NAMES
        responsive := true
        probeTimer := true } }.registerPendingWorkers

/-- The end of a start attempt that has failed or timed out. -/
def World.failed (w : World) (c : ConnectionId) : World :=
  let failedStarts := w.service.failedStarts + 1
  { w with
    starting := w.starting.erase c
    service := { w.service with failedStarts := failedStarts }.scheduleRetry
      (startRetryDelayMs failedStarts) }.close c

/-- The first turn of `probe`. -/
def Service.probe (s : Service) : Service :=
  if s.producer.isNone || s.probing || s.destroyed then s else { s with probing := true }

/-- `markResponsive`. -/
def Service.markResponsive (s : Service) (responsive : Bool) : Service :=
  { s with responsive := responsive }

/-- `work`.  Where it throws, the handler is not registered. -/
def World.work (w : World) (r : Registration) : World :=
  if w.service.producer.isNone then
    { w with
      service := { w.service with pendingWorkers := w.service.pendingWorkers ++ [r] }
      registered := w.registered ++ [r] }
  else
    match w.startWorker r with
    | some w => { w with registered := w.registered ++ [r] }
    | none => w

def World.setSend (w : World) (i : Nat) (s : Send) : World :=
  { w with sends := Function.update w.sends i s }

/-- The first turn of `send`. -/
def World.send (w : World) (i : Nat) (queue : QueueName) (key : String) : World :=
  if !w.isRunning then w.setSend i (.rejected (.notRunning queue))
  else if ':' ∈ key.toList then w.setSend i (.rejected (.colon key))
  else if queue ∈ w.service.queues then w.setSend i .adding
  else
    { w with service := w.service.markResponsive false }.setSend i (.rejected .notStarted)

/-- `onModuleDestroy`. -/
def Service.onModuleDestroy (s : Service) : Service :=
  { s with destroyed := true, retryTimer := none, probeTimer := false }

/-! ## The system -/

/-- What can happen next, and what Redis answers. -/
inductive Action where
  | onModuleInit
  | connects (c : ConnectionId)
  | fails (c : ConnectionId)
  | retry
  | probe
  | probed (answered : Bool)
  | reconnecting (c : ConnectionId)
  | ready (c : ConnectionId)
  | work (r : Registration)
  | send (i : Nat) (queue : QueueName) (key : String)
  | added (i : Nat) (answered : Bool)
  | onModuleDestroy
  | beforeApplicationShutdown
  | workersClosed
  | queuesClosed
  | producerClosed
deriving DecidableEq, Repr

/-- One action. -/
def step (w : World) : Action → Option World
  | .onModuleInit => if w.begun = 0 ∧ w.service.destroyed = false then some w.start else none
  | .connects c => if c ∈ w.starting then some (w.connected c) else none
  | .fails c => if c ∈ w.starting then some (w.failed c) else none
  | .retry =>
      if w.service.retryTimer.isSome then
        some { w with service := { w.service with retryTimer := none } }.start
      else none
  | .probe =>
      if w.service.probeTimer then some { w with service := w.service.probe } else none
  | .probed answered =>
      if w.service.probing then
        some { w with
          service := { w.service.markResponsive answered with probing := false } }
      else none
  | .reconnecting c =>
      if w.isOpen c then
        let w := { w with isReady := Function.update w.isReady c false }
        -- Only the producer is watched.
        if w.service.producer = some c ∧ w.service.destroyed = false then
          some { w with service := w.service.markResponsive false }
        else some w
      else none
  | .ready c =>
      if w.isOpen c then
        let w := { w with isReady := Function.update w.isReady c true }
        if w.service.producer = some c then some { w with service := w.service.probe }
        else some w
      else none
  | .work r => some (w.work r)
  | .send i queue key => if w.sends i = .idle then some (w.send i queue key) else none
  | .added i answered =>
      if w.sends i = .adding then
        if answered then some (w.setSend i .resolved)
        else
          some ({ w with service := w.service.markResponsive false }.setSend i (.rejected .failed))
      else none
  | .onModuleDestroy => some { w with service := w.service.onModuleDestroy }
  | .beforeApplicationShutdown =>
      if w.service.destroyed = true ∧ w.closing = .idle then
        some { w with service := { w.service with workers := [] }, closing := .workers }
      else none
  | .workersClosed =>
      if w.closing = .workers then
        some { w with service := { w.service with queues := [] }, closing := .queues }
      else none
  | .queuesClosed =>
      if w.closing = .queues then
        some { w with
          service := { w.service with producer := none }
          closing := (w.service.producer.map Closing.producer).getD .done }
      else none
  | .producerClosed =>
      match w.closing with
      -- `quit`, or `disconnect` where it fails.
      | .producer c => some { w.close c with closing := .done }
      | _ => none

/-- The service as a machine, where `work` is called for distinct queues. -/
def machine : Machine World Action where
  step w a :=
    match a with
    | .work r => if r.queue ∈ w.registered.map Registration.queue then none else step w (.work r)
    | a => step w a

end Vynor.Queue.BullMq
