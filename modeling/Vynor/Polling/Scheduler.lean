import Mathlib.Algebra.Group.Nat.Defs
import Vynor.Lib.Machine
import Vynor.Schema

/-!
# The polling loop of a worker

`tick` looks for the channels to poll from time to time, and starts a poll of each
one that is due, as far as there are free slots.  It starts again every second,
also while the query of an earlier tick is awaited.  A poll is cut at its awaits,
and each of them may reject.

A poll that ends with a success or a failure counts the failures in a row and sets
the time from which its channel is due again.  The worker keeps only the two
numbers; `scheduleAfter` reads them off the history of the polls.
-/

namespace Vynor.Polling.Scheduler

open Lib (Machine)

/-! ## The loop -/

/-- How often the list of polling channels is refreshed. -/
def DISCOVERY_INTERVAL_MS : Date := 5000

def MAX_BACKOFF_MS : Nat := 5 * 60000

def MAX_PARALLEL_POLLS : Nat := 10

/-- The settings of the loop. -/
structure WorkerEnv where
  EMAIL_POLL_INTERVAL_SECONDS : Nat
  TELEGRAM_POLL_INTERVAL_SECONDS : Nat

/-- A channel without a webhook. -/
structure Polled where
  id : Id
  channelType : ChannelType
deriving DecidableEq, Repr

structure Schedule where
  nextDueAt : Date
  failures : Nat
deriving DecidableEq, Repr

abbrev PollId := Nat

abbrev TickId := Nat

/-- Where a run of `pollChannel` stands. -/
inductive Stage where
  | leasing
  | polling (schedule : Schedule)
  | saving (schedule : Schedule) (events : Nat)
  | recording (schedule : Schedule) (events : Nat)
  | releasing (schedule : Schedule) (retryable : Bool)
  | reporting
deriving DecidableEq, Repr

/-- A run of `pollChannel`, and the time of the tick that started it. -/
structure Poll where
  id : PollId
  channel : Polled
  startedAt : Date
  stage : Stage := .leasing
deriving DecidableEq, Repr

inductive Outcome where
  | succeeded (events : Nat)
  | failed
deriving DecidableEq, Repr

/-- A poll that has ended with a new schedule. -/
structure Ended where
  channel : Polled
  startedAt : Date
  endedAt : Date
  outcome : Outcome
deriving DecidableEq, Repr

/-- The worker.  `ended` is the history of its polls, the newest one first; no
code reads it. -/
structure Worker where
  channels : List Polled := []
  schedules : Id → Option Schedule := fun _ => none
  inFlight : List Id := []
  discoveredAt : Date := 0
  stopped : Bool := false
  tick : TickId → Option Date := fun _ => none
  polls : List Poll := []
  nextPoll : PollId := 0
  ended : List Ended := []

/-- `intervalFor`. -/
def WorkerEnv.intervalFor (env : WorkerEnv) (channel : Polled) : Nat :=
  (if channel.channelType = .email then env.EMAIL_POLL_INTERVAL_SECONDS
    else env.TELEGRAM_POLL_INTERVAL_SECONDS) * 1000

namespace Worker

/-- The channel has no schedule, or one whose time has come. -/
def isDue (w : Worker) (now : Date) (channel : Polled) : Bool :=
  match w.schedules channel.id with
  | none => true
  | some schedule => schedule.nextDueAt ≤ now

def due (w : Worker) (now : Date) : List Polled :=
  w.channels.filter fun channel =>
    if channel.id ∈ w.inFlight then false else w.isDue now channel

/-- The start of one poll. -/
def startPoll (now : Date) (w : Worker) (channel : Polled) : Worker :=
  { w with
    inFlight := if channel.id ∈ w.inFlight then w.inFlight else w.inFlight ++ [channel.id]
    polls := w.polls ++ [⟨w.nextPoll, channel, now, .leasing⟩]
    nextPoll := w.nextPoll + 1 }

/-- The end of `tick`. -/
def startPolls (w : Worker) (now : Date) : Worker :=
  ((w.due now).take (MAX_PARALLEL_POLLS - w.inFlight.length)).foldl (startPoll now) w

/-- The same worker with a poll at another stage. -/
def setStage (w : Worker) (p : PollId) (stage : Stage) : Worker :=
  { w with polls := w.polls.map fun q => if q.id = p then { q with stage := stage } else q }

/-- The `finally` of a poll. -/
def finish (w : Worker) (q : Poll) : Worker :=
  { w with
    inFlight := w.inFlight.erase q.channel.id
    polls := w.polls.filter fun r => r.id ≠ q.id }

/-- The schedule that a poll goes on from. -/
def scheduleOf (w : Worker) (channel : Polled) : Schedule :=
  (w.schedules channel.id).getD ⟨0, 0⟩

/-- A poll sets the schedule of its channel. -/
def reschedule (w : Worker) (q : Poll) (schedule : Schedule) (now : Date) (outcome : Outcome) :
    Worker :=
  { w with
    schedules := Function.update w.schedules q.channel.id (some schedule)
    ended := ⟨q.channel, q.startedAt, now, outcome⟩ :: w.ended }

end Worker

/-- The wait after a success. -/
def WorkerEnv.waitAfter (env : WorkerEnv) (channel : Polled) (events : Nat) : Nat :=
  if 10 ≤ events then 1000 else env.intervalFor channel

/-- The wait after so many failures in a row. -/
def WorkerEnv.backoff (env : WorkerEnv) (channel : Polled) (failures : Nat) : Nat :=
  min MAX_BACKOFF_MS (env.intervalFor channel * 2 ^ failures)

/-- What can happen next, and what the environment answers. -/
inductive Action where
  | tick (k : TickId) (now : Date)
  | discovered (k : TickId) (found : Option (List Polled))
  | leased (p : PollId) (granted : Bool)
  | leaseFails (p : PollId)
  | polled (p : PollId) (events : Nat)
  | saved (p : PollId)
  | recorded (p : PollId) (now : Date)
  | fails (p : PollId) (retryable : Bool)
  | released (p : PollId) (now : Date)
  | reported (p : PollId)
  | stop

/-- One await of a poll has resolved or rejected. -/
def WorkerEnv.stepPoll (env : WorkerEnv) (w : Worker) (q : Poll) : Stage → Action → Option Worker
  | .leasing, .leased _ granted =>
      if granted then some (w.setStage q.id (.polling (w.scheduleOf q.channel)))
      else some (w.finish q)
  | .leasing, .leaseFails _ => some (w.finish q)
  | .polling schedule, .polled _ events => some (w.setStage q.id (.saving schedule events))
  | .saving schedule events, .saved _ => some (w.setStage q.id (.recording schedule events))
  | .recording _ events, .recorded _ now =>
      some ((w.reschedule q ⟨now + env.waitAfter q.channel events, 0⟩ now
        (.succeeded events)).finish q)
  | .polling schedule, .fails _ retryable
  | .saving schedule _, .fails _ retryable
  | .recording schedule _, .fails _ retryable =>
      some (w.setStage q.id (.releasing schedule retryable))
  | .releasing schedule retryable, .released _ now =>
      let failures := schedule.failures + 1
      let w := w.reschedule q ⟨now + env.backoff q.channel failures, failures⟩ now .failed
      -- A brief network blip is retried quietly.
      if !retryable || 3 ≤ failures then some (w.setStage q.id .reporting)
      else some (w.finish q)
  | .reporting, .reported _ => some (w.finish q)
  | _, _ => none

/-- The poll an action is of. -/
def Action.poll? : Action → Option PollId
  | .leased p _ => some p
  | .leaseFails p => some p
  | .polled p _ => some p
  | .saved p => some p
  | .recorded p _ => some p
  | .fails p _ => some p
  | .released p _ => some p
  | .reported p => some p
  | _ => none

/-- One action.  The rows that are found have ids of their own. -/
def WorkerEnv.step (env : WorkerEnv) (w : Worker) : Action → Option Worker
  | .tick k now =>
      if w.stopped then some w
      else if DISCOVERY_INTERVAL_MS < now - w.discoveredAt then
        match w.tick k with
        | some _ => none
        | none =>
            some { w with discoveredAt := now, tick := Function.update w.tick k (some now) }
      else some (w.startPolls now)
  | .discovered k found =>
      match w.tick k with
      | none => none
      | some now =>
          if (found.all fun channels => decide (channels.map Polled.id).Nodup) then
            some ({ w with
              channels := found.getD w.channels
              tick := Function.update w.tick k none }.startPolls now)
          else none
  | .stop => some { w with stopped := true }
  | a => do
      let p ← a.poll?
      let q ← w.polls.find? fun q => q.id = p
      env.stepPoll w q q.stage a

def WorkerEnv.machine (env : WorkerEnv) : Machine Worker Action := ⟨env.step⟩

/-- The time of a tick that starts polls. -/
def Worker.ticks (w : Worker) : Action → Option Date
  | .tick _ now =>
      if w.stopped || DISCOVERY_INTERVAL_MS < now - w.discoveredAt then none else some now
  | .discovered k _ => w.tick k
  | _ => none

/-! ## What the history gives -/

/-- The polls of one channel. -/
def pollsOf (id : Id) (ended : List Ended) : List Ended :=
  ended.filter fun e => e.channel.id = id

/-- The failures since the last success. -/
def failuresIn : List Ended → Nat
  | [] => 0
  | e :: rest =>
      match e.outcome with
      | .succeeded _ => 0
      | .failed => failuresIn rest + 1

/-- When a channel with these polls is due again, and the failures in a row. -/
def WorkerEnv.scheduleAfter (env : WorkerEnv) : List Ended → Option Schedule
  | [] => none
  | e :: rest =>
      match e.outcome with
      | .succeeded events => some ⟨e.endedAt + env.waitAfter e.channel events, 0⟩
      | .failed =>
          some ⟨e.endedAt + env.backoff e.channel (failuresIn rest + 1), failuresIn rest + 1⟩

/-- A poll that started at this time was due after these polls of its channel. -/
def WorkerEnv.IsDueAfter (env : WorkerEnv) (ended : List Ended) (startedAt : Date) : Prop :=
  ∀ schedule, env.scheduleAfter ended = some schedule → schedule.nextDueAt ≤ startedAt

/-- Every poll was due after the polls of its channel before it. -/
def WorkerEnv.Spaced (env : WorkerEnv) : List Ended → Prop
  | [] => True
  | e :: rest => env.IsDueAfter (pollsOf e.channel.id rest) e.startedAt ∧ env.Spaced rest

end Vynor.Polling.Scheduler
