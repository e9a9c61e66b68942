import Vynor.Inbound.Runs
import Vynor.Outbox.Copies
import Vynor.Outbox.Reconciliation

/-!
# From the journal to the processor

Journaling, the outbox, the queue `vynor.webhooks.process` and the runs of
`process` in one state.

* A provider event and its outbox row are journaled together.  A batch is a
  sequence of such steps.
* The outbox takes its own steps.  A job the queue accepts under a key it does
  not hold is new and waits.
* A waiting job starts a run as its next attempt.  An attempt that returns
  completes the job.  One that throws puts it back, or fails it when it was the
  last.  A job whose lock lapsed is put back while its attempt may go on, or
  fails when it stalled too often.  Completed and failed jobs are kept.
* The queue may lose a job at any time: retention removes finished ones, and
  Redis may lose others.
* A replay makes an event `RECEIVED` and enqueues nothing.
-/

namespace Vynor.Inbound.Handover

open Lib (Machine)
open Journal (JournalProviderEventsParams JournalEventInput PROVIDER_EVENT_RECEIVED receivedParams
  receivedEvent)
open Outbox (HoldsJob)
open Queue (Job QUEUE_CONFIGS jobOptionsFor)

/-! ## Jobs -/

/-- Where BullMQ has a job.  A job that waits for its retry delay is waiting. -/
inductive JobState where
  | waiting
  | active (i : CallId)
  | completed
  | failed
deriving DecidableEq, Repr

/-- What BullMQ counts of a job. -/
structure JobRun where
  attemptsMade : Nat := 0
  stalledCount : Nat := 0
  state : JobState := .waiting
deriving DecidableEq, Repr

/-- BullMQ runs the job, or will. -/
def JobRun.live (run : JobRun) : Bool :=
  match run.state with
  | .waiting => true
  | .active _ => true
  | _ => false

/-- The attempt under way is the last one. -/
def JobRun.lastAttempt (run : JobRun) : Bool :=
  (jobOptionsFor .webhooksProcess).attempts ≤ run.attemptsMade + 1

/-- One more stall is one too many: `maxStalledCount` is the queue's
`retryLimit`. -/
def JobRun.lastStall (run : JobRun) : Bool :=
  (QUEUE_CONFIGS .webhooksProcess).retryLimit < run.stalledCount + 1

/-- A job whose attempt has come to an end. -/
def JobRun.settled (run : JobRun) : Stage → Option JobRun
  | .returned => some { run with state := .completed }
  | .threw =>
      some { run with
        attemptsMade := run.attemptsMade + 1
        state := if run.lastAttempt then .failed else .waiting }
  | _ => none

/-- A job whose lock lapsed. -/
def JobRun.stalled (run : JobRun) : JobRun :=
  { run with
    stalledCount := run.stalledCount + 1
    state := if run.lastStall then .failed else .waiting }

/-- The handler of the queue: the point where its run stands at first. -/
def handle (job : Job) : Stage :=
  match truthy (job.envelope.payload.get? "providerEventId") with
  | some providerEventId => .starting providerEventId
  | none => .returned

/-! ## The machine -/

structure World where
  runs : Runs.World
  outbox : Outbox.World
  job : String → JobRun

/-- The job that the webhook queue holds under a key. -/
def Held (w : World) (key : String) (job : Job) : Prop :=
  job ∈ w.outbox.accepted ∧ job.envelope.queue = .webhooksProcess ∧ job.key = key

instance (w : World) (key : String) (job : Job) : Decidable (Held w key job) :=
  inferInstanceAs (Decidable (_ ∧ _))

/-- The same world with a job at another point. -/
def World.setJob (w : World) (key : String) (run : JobRun) : World :=
  { w with job := Function.update w.job key run }

/-- What can happen next. -/
inductive Action where
  | journal (params : JournalProviderEventsParams) (event : JournalEventInput) (id outboxId : Id)
      (startedAt now : Date)
  | dispatch (a : Outbox.Action)
  | start (job : Job) (i : CallId)
  | process (a : Runs.Action)
  | settle (job : Job)
  | stall (job : Job)
  | lose (job : Job)
  | replay (eventId : Id) (now : Date)

/-- The outbox is written to by other services as well, with other event types. -/
def foreign : Outbox.Action → Bool
  | .create _ _ params => params.eventType ≠ PROVIDER_EVENT_RECEIVED
  | _ => true

/-- The runs of a job are started and journaled elsewhere. -/
def inner : Runs.Action → Bool
  | .journal _ => false
  | .start _ _ => false
  | _ => true

/-- What BullMQ counts after an action of the outbox: a job it did not hold is
new. -/
def counted (w : World) (a : Outbox.Action) : String → JobRun :=
  match a.accepts? with
  | some job =>
      if job.envelope.queue = .webhooksProcess ∧
          ¬ HoldsJob w.outbox.accepted job.envelope.queue job.key then
        Function.update w.job job.key {}
      else w.job
  | none => w.job

/-- One action.  A generated id is not empty. -/
def step (w : World) : Action → Option World
  | .journal params event id outboxId startedAt now =>
      if id = "" then none
      else
        (Runs.step w.runs (.journal
          (Journal.newProviderEvent params (Journal.purgeAfter params startedAt) id event))).bind
          fun runs =>
            (Outbox.step w.outbox (.create outboxId now (receivedParams params id))).map
              fun outbox => { w with runs := runs, outbox := outbox }
  | .dispatch a =>
      if foreign a then
        (Outbox.step w.outbox a).map fun outbox => { w with outbox := outbox, job := counted w a }
      else none
  | .start job i =>
      if Held w job.key job ∧ (w.job job.key).state = .waiting ∧ w.runs.call i = .idle then
        some { w.setJob job.key { w.job job.key with state := .active i } with
          runs := w.runs.setCall i (handle job) }
      else none
  | .process a =>
      if inner a then (Runs.step w.runs a).map fun runs => { w with runs := runs } else none
  | .settle job =>
      match (w.job job.key).state with
      | .active i =>
          if Held w job.key job then
            ((w.job job.key).settled (w.runs.call i)).map fun run => w.setJob job.key run
          else none
      | _ => none
  | .stall job =>
      match (w.job job.key).state with
      | .active _ =>
          if Held w job.key job then some (w.setJob job.key (w.job job.key).stalled) else none
      | _ => none
  | .lose job =>
      some { w with outbox := { w.outbox with accepted := w.outbox.accepted.erase job } }
  | .replay eventId now =>
      (replayProviderEvent w.runs.events eventId now).map fun (_, events) =>
        { w with runs := w.runs.write events ⟨eventId, .received⟩ }

/-- The handover as a machine. -/
def machine : Machine World Action := ⟨step⟩

@[simp] theorem machine_step (w : World) (a : Action) : machine.step w a = step w a := rfl

/-- Empty tables, and nothing under way. -/
def World.init : World := ⟨.init, .init, fun _ => {}⟩

section SetJob

variable (w : World) (key : String) (run : JobRun)

@[simp] theorem World.setJob_runs : (w.setJob key run).runs = w.runs := rfl

@[simp] theorem World.setJob_outbox : (w.setJob key run).outbox = w.outbox := rfl

@[simp] theorem World.setJob_self : (w.setJob key run).job key = run := by
  simp [World.setJob]

end SetJob

theorem World.setJob_other (w : World) {key key' : String} (run : JobRun) (h : key' ≠ key) :
    (w.setJob key run).job key' = w.job key' := by
  simp [World.setJob, h]

/-! ## What a step does -/

/-- A journaling step journals the event and its row. -/
theorem of_step_journal {w w' : World} {params : JournalProviderEventsParams}
    {event : JournalEventInput} {id outboxId : Id} {startedAt now : Date}
    (h : step w (.journal params event id outboxId startedAt now) = some w') :
    id ≠ "" ∧ ∃ events outbox,
      w.runs.events.insert?
        (Journal.newProviderEvent params (Journal.purgeAfter params startedAt) id event) = some events ∧
      w.outbox.events.insert? (receivedEvent params id outboxId now) = some outbox ∧
      w' = { w with
        runs := { w.runs with events := events }, outbox := { w.outbox with events := outbox } } := by
  simp only [step] at h
  split at h
  · cases h
  next hne =>
    obtain ⟨runs, hruns, h⟩ := Option.bind_eq_some_iff.mp h
    obtain ⟨outbox, houtbox, rfl⟩ := Option.map_eq_some_iff.mp h
    obtain ⟨t, ht, rfl⟩ := Option.map_eq_some_iff.mp houtbox
    simp only [Runs.step] at hruns
    split at hruns
    · obtain ⟨events, hevents, rfl⟩ := Option.map_eq_some_iff.mp hruns
      exact ⟨hne, events, t, hevents, ht, rfl⟩
    · cases hruns

theorem of_step_dispatch {w w' : World} {a : Outbox.Action} (h : step w (.dispatch a) = some w') :
    foreign a = true ∧ ∃ outbox, Outbox.step w.outbox a = some outbox ∧
      w' = { w with outbox := outbox, job := counted w a } := by
  simp only [step] at h
  split at h
  next hforeign =>
    obtain ⟨outbox, houtbox, rfl⟩ := Option.map_eq_some_iff.mp h
    exact ⟨hforeign, outbox, houtbox, rfl⟩
  · cases h

theorem of_step_start {w w' : World} {job : Job} {i : CallId} (h : step w (.start job i) = some w') :
    Held w job.key job ∧ (w.job job.key).state = .waiting ∧ w.runs.call i = .idle ∧
      w' = { w.setJob job.key { w.job job.key with state := .active i } with
        runs := w.runs.setCall i (handle job) } := by
  simp only [step] at h
  split at h
  next hcond =>
    cases h
    exact ⟨hcond.1, hcond.2.1, hcond.2.2, rfl⟩
  · cases h

theorem of_step_process {w w' : World} {a : Runs.Action} (h : step w (.process a) = some w') :
    inner a = true ∧ ∃ runs, Runs.step w.runs a = some runs ∧ w' = { w with runs := runs } := by
  simp only [step] at h
  split at h
  next hinner =>
    obtain ⟨runs, hruns, rfl⟩ := Option.map_eq_some_iff.mp h
    exact ⟨hinner, runs, hruns, rfl⟩
  · cases h

theorem of_step_settle {w w' : World} {job : Job} (h : step w (.settle job) = some w') :
    ∃ i run, (w.job job.key).state = .active i ∧ Held w job.key job ∧
      (w.job job.key).settled (w.runs.call i) = some run ∧ w' = w.setJob job.key run := by
  simp only [step] at h
  split at h
  next i hactive =>
    split at h
    next hheld =>
      obtain ⟨run, hrun, rfl⟩ := Option.map_eq_some_iff.mp h
      exact ⟨i, run, hactive, hheld, hrun, rfl⟩
    · cases h
  · cases h

theorem of_step_stall {w w' : World} {job : Job} (h : step w (.stall job) = some w') :
    ∃ i, (w.job job.key).state = .active i ∧ Held w job.key job ∧
      w' = w.setJob job.key (w.job job.key).stalled := by
  simp only [step] at h
  split at h
  next i hactive =>
    split at h
    next hheld =>
      cases h
      exact ⟨i, hactive, hheld, rfl⟩
    · cases h
  · cases h

theorem of_step_replay {w w' : World} {eventId : Id} {now : Date}
    (h : step w (.replay eventId now) = some w') :
    ∃ r events, replayProviderEvent w.runs.events eventId now = some (r, events) ∧
      w' = { w with runs := w.runs.write events ⟨eventId, .received⟩ } := by
  obtain ⟨⟨r, events⟩, hreplay, rfl⟩ := Option.map_eq_some_iff.mp h
  exact ⟨r, events, hreplay, rfl⟩

end Vynor.Inbound.Handover
