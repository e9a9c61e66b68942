import Vynor.Lib.Machine
import Vynor.Outbox.Events
import Vynor.Queue.Jobs

/-!
# The outbox dispatcher

Any number of workers run `pollAndDispatch` and `runLeaseRecovery` against one
table.  A worker's poll is cut at its awaits: between two of them other workers
move, the clock advances and the queue answers.  `Poll` names the points where
a poll can stand.

* `claiming`: the checks at the top passed, the claim is awaited.
* `loop`: at the head of the loop over the claimed events.
* `releasing`: shutdown or a stopped queue was seen there, and
  `releaseUnattempted` is awaited.
* `sending`: the job of an event was handed to the queue.
* `completing`, `failing`: the send resolved, or it (or the completing update)
  threw, and the completing or the failing update is awaited.

A statement is atomic: it runs, or it throws and changes nothing.  A statement
that throws inside the inner `try` leads to `failing`, any other one ends the
poll.  An enqueue that was handed to the queue may be accepted at any later
time, also after the worker gave up on it, and a send resolves only once the
queue holds a job under the key.  A crashed worker takes no further step.

`Takes` says once what a step can do, and `step_row` what it can do to a row.
-/

namespace Vynor.Outbox

open Lib (Table Machine)
open Queue (Job outboxJobKey queueFor createJobEnvelope)

/-- `workerId` of a dispatcher. -/
abbrev WorkerId := String

/-- Where a run of `pollAndDispatch` stands. -/
inductive Poll where
  | idle
  | claiming
  | loop (rest : List OutboxEvent)
  | releasing (rest : List OutboxEvent)
  | sending (event : OutboxEvent) (rest : List OutboxEvent)
  | completing (event : OutboxEvent) (rest : List OutboxEvent)
  | failing (event : OutboxEvent) (errorMessage : String) (rest : List OutboxEvent)
  | crashed
deriving DecidableEq, Repr

/-- The loop over the events that are left, or the end of the poll. -/
def Poll.next : List OutboxEvent → Poll
  | [] => .idle
  | e :: rest => .loop (e :: rest)

structure Worker where
  poll : Poll := .idle
  isShuttingDown : Bool := false
deriving DecidableEq, Repr

/-- The shared state: the table, the database clock, the workers, the recovery
runs that stand between their two statements, and the queue. -/
structure World where
  events : Events
  now : Date
  worker : WorkerId → Worker
  recovering : Nat
  inFlight : List Job
  accepted : List Job

/-- No row, no worker at work, no job. -/
def World.init : World := ⟨.empty, 0, fun _ => {}, 0, [], []⟩

/-- The same world with one worker at another point of its poll. -/
def World.setPoll (w : World) (i : WorkerId) (p : Poll) : World :=
  { w with worker := Function.update w.worker i { w.worker i with poll := p } }

/-- The envelope of an event's job. -/
def envelopeFor (event : OutboxEvent) (now : Date) : Queue.JobEnvelope :=
  createJobEnvelope event.id (queueFor event.eventType)
    { correlationId := (truthy event.correlationId).getD ("evt_" ++ event.id)
      causationId := truthy event.causationId
      workspaceId := event.workspaceId
      actorId := truthy event.actorId
      traceparent := truthy event.traceparent }
    event.payload now

/-- The job a worker hands to the queue for an event. -/
def jobFor (event : OutboxEvent) (now : Date) : Job :=
  ⟨outboxJobKey event.id, envelopeFor event now⟩

/-- The queue already holds a job under this key. -/
def HoldsJob (jobs : List Job) (queue : Queue.QueueName) (key : String) : Prop :=
  ∃ j ∈ jobs, j.envelope.queue = queue ∧ j.key = key

instance (jobs : List Job) (queue : Queue.QueueName) (key : String) :
    Decidable (HoldsJob jobs queue key) :=
  inferInstanceAs (Decidable (∃ j ∈ jobs, _ ∧ _))

/-- Enqueue under the key as job id: a job already held is not added again. -/
def enqueue (jobs : List Job) (job : Job) : List Job :=
  if HoldsJob jobs job.envelope.queue job.key then jobs else job :: jobs

/-- What can happen next, and what the environment answers. -/
inductive Action where
  | create (id : Id) (now : Date) (params : CreateOutboxEventParams)
  | poll (i : WorkerId)
  | claim (i : WorkerId) (now : Date) (locked picked : List Id)
  | claimFails (i : WorkerId)
  | enter (i : WorkerId) (isRunning : Bool) (now : Date)
  | release (i : WorkerId)
  | releaseFails (i : WorkerId)
  | accept (job : Job)
  | sendResolves (i : WorkerId)
  | sendRejects (i : WorkerId) (errorMessage : String)
  | complete (i : WorkerId) (processedAt dispatchedAt : Date)
  | completeFails (i : WorkerId) (errorMessage : String)
  | fail (i : WorkerId)
  | failFails (i : WorkerId)
  | shutdown (i : WorkerId)
  | crash (i : WorkerId)
  | recover (now : Date)
  | deadLetter (now : Date)
  | recoveryFails

/-- One action.  Statements that read `NOW()` carry it, and it never runs
backwards. -/
def step (w : World) : Action → Option World
  | .create id now params =>
      (createOutboxEvent w.events id now params).map fun t => { w with events := t }
  | .poll i =>
      if (w.worker i).poll = .idle ∧ (w.worker i).isShuttingDown = false then
        some (w.setPoll i .claiming)
      else none
  | .claim i now locked picked =>
      if (w.worker i).poll = .claiming ∧ w.now ≤ now ∧
          Claimable w.events now CLAIM_BATCH_SIZE locked picked then
        let claimed := claimPendingOutboxEvents w.events i now picked
        some { (w.setPoll i (.next claimed.2)) with events := claimed.1, now := now }
      else none
  | .claimFails i =>
      if (w.worker i).poll = .claiming then some (w.setPoll i .idle) else none
  | .enter i isRunning now =>
      match (w.worker i).poll with
      | .loop (event :: rest) =>
          if (w.worker i).isShuttingDown = true ∨ isRunning = false then
            some (w.setPoll i (.releasing (event :: rest)))
          else
            some { (w.setPoll i (.sending event rest)) with
              inFlight := jobFor event now :: w.inFlight }
      | _ => none
  | .release i =>
      match (w.worker i).poll with
      | .releasing rest =>
          some { (w.setPoll i .idle) with events := releaseUnattempted w.events i rest }
      | _ => none
  | .releaseFails i =>
      match (w.worker i).poll with
      | .releasing _ => some (w.setPoll i .idle)
      | _ => none
  | .accept job =>
      if job ∈ w.inFlight then
        some { w with inFlight := w.inFlight.erase job, accepted := enqueue w.accepted job }
      else none
  | .sendResolves i =>
      match (w.worker i).poll with
      | .sending event rest =>
          if HoldsJob w.accepted (queueFor event.eventType) (outboxJobKey event.id) then
            some (w.setPoll i (.completing event rest))
          else none
      | _ => none
  | .sendRejects i errorMessage =>
      match (w.worker i).poll with
      | .sending event rest => some (w.setPoll i (.failing event errorMessage rest))
      | _ => none
  | .complete i processedAt dispatchedAt =>
      match (w.worker i).poll with
      | .completing event rest =>
          some { (w.setPoll i (.next rest)) with
            events := markCompleted w.events event.id processedAt dispatchedAt }
      | _ => none
  | .completeFails i errorMessage =>
      match (w.worker i).poll with
      | .completing event rest => some (w.setPoll i (.failing event errorMessage rest))
      | _ => none
  | .fail i =>
      match (w.worker i).poll with
      | .failing event errorMessage rest =>
          some { (w.setPoll i (.next rest)) with
            events := markFailed w.events event errorMessage }
      | _ => none
  | .failFails i =>
      match (w.worker i).poll with
      | .failing _ _ _ => some (w.setPoll i .idle)
      | _ => none
  | .shutdown i =>
      some { w with
        worker := Function.update w.worker i { w.worker i with isShuttingDown := true } }
  | .crash i => some (w.setPoll i .crashed)
  | .recover now =>
      if w.now ≤ now then
        some { w with
          events := recoverExpired w.events now MAX_DISPATCH_ATTEMPTS
          now := now
          recovering := w.recovering + 1 }
      else none
  | .deadLetter now =>
      if 0 < w.recovering ∧ w.now ≤ now then
        some { w with
          events := deadLetterExpired w.events now MAX_DISPATCH_ATTEMPTS
          now := now
          recovering := w.recovering - 1 }
      else none
  | .recoveryFails =>
      if 0 < w.recovering then some { w with recovering := w.recovering - 1 } else none

/-- The outbox as a machine. -/
def machine : Machine World Action := ⟨step⟩

@[simp] theorem machine_step (w : World) (a : Action) : machine.step w a = step w a := rfl

@[simp] theorem World.setPoll_events (w : World) (i : WorkerId) (p : Poll) :
    (w.setPoll i p).events = w.events := rfl

@[simp] theorem World.setPoll_self (w : World) (i : WorkerId) (p : Poll) :
    ((w.setPoll i p).worker i).poll = p := by
  simp [World.setPoll]

theorem World.setPoll_other (w : World) {i j : WorkerId} (p : Poll) (h : j ≠ i) :
    (w.setPoll i p).worker j = w.worker j := by
  simp [World.setPoll, h]

/-! ## What a step does -/

/-- One constructor for each branch of `step`, with what it needs and the world after
it. -/
inductive Takes (w : World) : Action → World → Prop where
  | create {id : Id} {now : Date} {params : CreateOutboxEventParams} {t : Events} :
      createOutboxEvent w.events id now params = some t →
      Takes w (.create id now params) { w with events := t }
  | poll {i : WorkerId} : (w.worker i).poll = .idle → (w.worker i).isShuttingDown = false →
      Takes w (.poll i) (w.setPoll i .claiming)
  | claim {i : WorkerId} {now : Date} {locked picked : List Id} :
      w.now ≤ now → Claimable w.events now CLAIM_BATCH_SIZE locked picked →
      (w.worker i).poll = .claiming →
      Takes w (.claim i now locked picked)
        { (w.setPoll i (.next (claimPendingOutboxEvents w.events i now picked).2)) with
          events := (claimPendingOutboxEvents w.events i now picked).1, now := now }
  | claimFails {i : WorkerId} : (w.worker i).poll = .claiming →
      Takes w (.claimFails i) (w.setPoll i .idle)
  | stops {i : WorkerId} {isRunning : Bool} {now : Date} {event : OutboxEvent}
      {rest : List OutboxEvent} : (w.worker i).poll = .loop (event :: rest) →
      ((w.worker i).isShuttingDown = true ∨ isRunning = false) →
      Takes w (.enter i isRunning now) (w.setPoll i (.releasing (event :: rest)))
  | hands {i : WorkerId} {isRunning : Bool} {now : Date} {event : OutboxEvent}
      {rest : List OutboxEvent} : (w.worker i).poll = .loop (event :: rest) →
      ¬((w.worker i).isShuttingDown = true ∨ isRunning = false) →
      Takes w (.enter i isRunning now)
        { (w.setPoll i (.sending event rest)) with inFlight := jobFor event now :: w.inFlight }
  | release {i : WorkerId} {rest : List OutboxEvent} : (w.worker i).poll = .releasing rest →
      Takes w (.release i)
        { (w.setPoll i .idle) with events := releaseUnattempted w.events i rest }
  | releaseFails {i : WorkerId} {rest : List OutboxEvent} : (w.worker i).poll = .releasing rest →
      Takes w (.releaseFails i) (w.setPoll i .idle)
  | accept {job : Job} : job ∈ w.inFlight →
      Takes w (.accept job)
        { w with inFlight := w.inFlight.erase job, accepted := enqueue w.accepted job }
  | sendResolves {i : WorkerId} {event : OutboxEvent} {rest : List OutboxEvent} :
      (w.worker i).poll = .sending event rest →
      HoldsJob w.accepted (queueFor event.eventType) (outboxJobKey event.id) →
      Takes w (.sendResolves i) (w.setPoll i (.completing event rest))
  | sendRejects {i : WorkerId} {errorMessage : String} {event : OutboxEvent}
      {rest : List OutboxEvent} : (w.worker i).poll = .sending event rest →
      Takes w (.sendRejects i errorMessage) (w.setPoll i (.failing event errorMessage rest))
  | complete {i : WorkerId} {processedAt dispatchedAt : Date} {event : OutboxEvent}
      {rest : List OutboxEvent} : (w.worker i).poll = .completing event rest →
      Takes w (.complete i processedAt dispatchedAt)
        { (w.setPoll i (.next rest)) with
          events := markCompleted w.events event.id processedAt dispatchedAt }
  | completeFails {i : WorkerId} {errorMessage : String} {event : OutboxEvent}
      {rest : List OutboxEvent} : (w.worker i).poll = .completing event rest →
      Takes w (.completeFails i errorMessage) (w.setPoll i (.failing event errorMessage rest))
  | fail {i : WorkerId} {event : OutboxEvent} {errorMessage : String}
      {rest : List OutboxEvent} : (w.worker i).poll = .failing event errorMessage rest →
      Takes w (.fail i)
        { (w.setPoll i (.next rest)) with events := markFailed w.events event errorMessage }
  | failFails {i : WorkerId} {event : OutboxEvent} {errorMessage : String}
      {rest : List OutboxEvent} : (w.worker i).poll = .failing event errorMessage rest →
      Takes w (.failFails i) (w.setPoll i .idle)
  | shutdown {i : WorkerId} :
      Takes w (.shutdown i)
        { w with worker := Function.update w.worker i { w.worker i with isShuttingDown := true } }
  | crash {i : WorkerId} : Takes w (.crash i) (w.setPoll i .crashed)
  | recover {now : Date} : w.now ≤ now →
      Takes w (.recover now)
        { w with
          events := recoverExpired w.events now MAX_DISPATCH_ATTEMPTS
          now := now
          recovering := w.recovering + 1 }
  | deadLetter {now : Date} : w.now ≤ now → 0 < w.recovering →
      Takes w (.deadLetter now)
        { w with
          events := deadLetterExpired w.events now MAX_DISPATCH_ATTEMPTS
          now := now
          recovering := w.recovering - 1 }
  | recoveryFails : 0 < w.recovering →
      Takes w .recoveryFails { w with recovering := w.recovering - 1 }

theorem takes_of_step {w w' : World} {a : Action} (h : step w a = some w') : Takes w a w' := by
  cases a with
  | create id now params =>
      obtain ⟨t, ht, rfl⟩ := Option.map_eq_some_iff.mp h
      exact .create ht
  | poll i =>
      simp only [step, Option.ite_none_right_eq_some] at h
      obtain ⟨⟨hidle, hrunning⟩, h⟩ := h
      cases h
      exact .poll hidle hrunning
  | claim i now locked picked =>
      simp only [step, Option.ite_none_right_eq_some] at h
      obtain ⟨⟨hclaiming, hnow, hclaimable⟩, h⟩ := h
      cases h
      exact .claim hnow hclaimable hclaiming
  | claimFails i =>
      simp only [step, Option.ite_none_right_eq_some] at h
      obtain ⟨hclaiming, h⟩ := h
      cases h
      exact .claimFails hclaiming
  | enter i isRunning now =>
      simp only [step] at h
      split at h
      next event rest hpoll =>
        split at h
        next hstops =>
          cases h
          exact .stops hpoll hstops
        next hgoes =>
          cases h
          exact .hands hpoll hgoes
      next => cases h
  | release i =>
      simp only [step] at h
      split at h
      next rest hpoll =>
        cases h
        exact .release hpoll
      next => cases h
  | releaseFails i =>
      simp only [step] at h
      split at h
      next rest hpoll =>
        cases h
        exact .releaseFails hpoll
      next => cases h
  | accept job =>
      simp only [step, Option.ite_none_right_eq_some] at h
      obtain ⟨hmem, h⟩ := h
      cases h
      exact .accept hmem
  | sendResolves i =>
      simp only [step] at h
      split at h
      next event rest hpoll =>
        split at h
        next hholds =>
          cases h
          exact .sendResolves hpoll hholds
        next => cases h
      next => cases h
  | sendRejects i errorMessage =>
      simp only [step] at h
      split at h
      next event rest hpoll =>
        cases h
        exact .sendRejects hpoll
      next => cases h
  | complete i processedAt dispatchedAt =>
      simp only [step] at h
      split at h
      next event rest hpoll =>
        cases h
        exact .complete hpoll
      next => cases h
  | completeFails i errorMessage =>
      simp only [step] at h
      split at h
      next event rest hpoll =>
        cases h
        exact .completeFails hpoll
      next => cases h
  | fail i =>
      simp only [step] at h
      split at h
      next event errorMessage rest hpoll =>
        cases h
        exact .fail hpoll
      next => cases h
  | failFails i =>
      simp only [step] at h
      split at h
      next event errorMessage rest hpoll =>
        cases h
        exact .failFails hpoll
      next => cases h
  | shutdown i =>
      cases h
      exact .shutdown
  | crash i =>
      cases h
      exact .crash
  | recover now =>
      simp only [step, Option.ite_none_right_eq_some] at h
      obtain ⟨hnow, h⟩ := h
      cases h
      exact .recover hnow
  | deadLetter now =>
      simp only [step, Option.ite_none_right_eq_some] at h
      obtain ⟨⟨hrecovering, hnow⟩, h⟩ := h
      cases h
      exact .deadLetter hnow hrecovering
  | recoveryFails =>
      simp only [step, Option.ite_none_right_eq_some] at h
      obtain ⟨hrecovering, h⟩ := h
      cases h
      exact .recoveryFails hrecovering

/-! ## What a step does to a row -/

/-- The ways an action changes a row, with what held before. -/
inductive RowStep (w : World) : Action → OutboxEvent → OutboxEvent → Prop where
  | same {a : Action} {e : OutboxEvent} : RowStep w a e e
  | claim {i : WorkerId} {now : Date} {locked picked : List Id} {e : OutboxEvent} :
      e.id ∈ picked → e.due now = true →
      RowStep w (.claim i now locked picked) e (e.claim i now)
  | recover {now : Date} {e : OutboxEvent} :
      e.orphaned now = true → e.retryCount < MAX_DISPATCH_ATTEMPTS →
      RowStep w (.recover now) e e.recover
  | bury {now : Date} {e : OutboxEvent} :
      e.orphaned now = true → MAX_DISPATCH_ATTEMPTS ≤ e.retryCount →
      RowStep w (.deadLetter now) e e.bury
  | complete {i : WorkerId} {processedAt dispatchedAt : Date} {e event : OutboxEvent}
      {rest : List OutboxEvent} :
      (w.worker i).poll = .completing event rest → e.id = event.id →
      RowStep w (.complete i processedAt dispatchedAt) e (e.complete processedAt dispatchedAt)
  | fail {i : WorkerId} {errorMessage : String} {e event : OutboxEvent}
      {rest : List OutboxEvent} :
      (w.worker i).poll = .failing event errorMessage rest → e.id = event.id →
      RowStep w (.fail i) e (e.fail event.failedStatus errorMessage)
  | release {i : WorkerId} {e : OutboxEvent} {rest : List OutboxEvent} :
      (w.worker i).poll = .releasing rest → e.claimHeld i rest = true →
      RowStep w (.release i) e e.release

/-- A picked row is due. -/
theorem Claimable.due {t : Events} {now : Date} {limit : Nat} {locked picked : List Id}
    (h : Claimable t now limit locked picked) {id : Id} {e : OutboxEvent}
    (he : t.find? id = some e) (hp : e.id ∈ picked) : e.due now = true := by
  obtain ⟨_, e', he', hid, hdue⟩ := h.2.2.1 e.id hp
  have heq : e' = e := OutboxEvent.eq_of_id he' (Table.find?_eq_some.mp he).1 hid
  exact heq ▸ hdue

/-- A row under an id is still there after a step, changed in one of these
ways or not at all. -/
theorem step_row {w w' : World} {a : Action} {id : Id} {e : OutboxEvent} (h : step w a = some w')
    (he : w.events.find? id = some e) :
    ∃ e', w'.events.find? id = some e' ∧ RowStep w a e e' := by
  cases takes_of_step h with
  | create ht => exact ⟨e, Table.find?_of_insert?_of_some ht he, .same⟩
  | @claim i now locked picked _ hclaimable =>
      refine ⟨_, find?_claim i now picked he, ?_⟩
      by_cases hp : e.id ∈ picked
      · simpa [hp] using RowStep.claim hp (hclaimable.due he hp)
      · simpa [hp] using RowStep.same
  | @recover now _ =>
      refine ⟨_, find?_recoverExpired now _ he, ?_⟩
      split
      next hp =>
        simp only [Bool.and_eq_true, decide_eq_true_eq] at hp
        exact .recover hp.1 hp.2
      next => exact .same
  | @deadLetter now _ =>
      refine ⟨_, find?_deadLetterExpired now _ he, ?_⟩
      split
      next hp =>
        simp only [Bool.and_eq_true, decide_eq_true_eq] at hp
        exact .bury hp.1 hp.2
      next => exact .same
  | @complete i processedAt dispatchedAt event rest hpoll =>
      refine ⟨_, find?_markCompleted event.id processedAt dispatchedAt he, ?_⟩
      split
      next hid => exact .complete hpoll (by simpa using hid)
      next => exact .same
  | @fail i event errorMessage rest hpoll =>
      refine ⟨_, find?_markFailed event errorMessage he, ?_⟩
      split
      next hid => exact .fail hpoll (by simpa using hid)
      next => exact .same
  | @release i rest hpoll =>
      refine ⟨_, find?_releaseUnattempted i rest he, ?_⟩
      split
      next hheld => exact .release hpoll hheld
      next => exact .same
  | poll | claimFails | stops _ | hands _ | releaseFails => exact ⟨e, he, .same⟩
  | sendResolves _ _ | sendRejects _ | completeFails _ | failFails => exact ⟨e, he, .same⟩
  | accept _ | shutdown | crash | recoveryFails => exact ⟨e, he, .same⟩

end Vynor.Outbox
