import Vynor.Outbox.Leases

/-!
# Copies of outbox events

No statement changes what a row says: its id, its event type and its payload.
So the events of a poll, the jobs on their way to the queue and the jobs the
queue holds are copies of rows (`Copies`).  The queue holds at most one job
under a key, and a row that is `COMPLETED` has a dispatch time.
-/

namespace Vynor.Outbox

open Lib (Table Machine)
open Queue (Job outboxJobKey queueFor)

/-- Two rows that say the same. -/
structure SameContent (a b : OutboxEvent) : Prop where
  id : a.id = b.id
  eventType : a.eventType = b.eventType
  payload : a.payload = b.payload

theorem SameContent.rfl {e : OutboxEvent} : SameContent e e := ⟨Eq.refl _, Eq.refl _, Eq.refl _⟩

theorem SameContent.trans {a b c : OutboxEvent} (h : SameContent a b) (h' : SameContent b c) :
    SameContent a c :=
  ⟨h.id.trans h'.id, h.eventType.trans h'.eventType, h.payload.trans h'.payload⟩

theorem SameContent.symm {a b : OutboxEvent} (h : SameContent a b) : SameContent b a :=
  ⟨h.id.symm, h.eventType.symm, h.payload.symm⟩

theorem RowStep.sameContent {w : World} {a : Action} {e e' : OutboxEvent} (h : RowStep w a e e') :
    SameContent e e' := by
  cases h <;> exact ⟨rfl, rfl, rfl⟩

/-- The status of a row, and the dispatch time it comes with. -/
structure OutboxEvent.Sound (e : OutboxEvent) : Prop where
  dispatched : e.status = .completed → e.dispatchedAt.isSome = true
  not_failed : e.status ≠ .failed

theorem sound_newOutboxEvent (id : Id) (now : Date) (params : CreateOutboxEventParams) :
    (newOutboxEvent id now params).Sound :=
  ⟨nofun, nofun⟩

theorem RowStep.sound {w : World} {a : Action} {e e' : OutboxEvent} (h : RowStep w a e e')
    (he : e.Sound) : e'.Sound := by
  cases h with
  | same => exact he
  | claim | recover | bury | release => exact ⟨nofun, nofun⟩
  | complete => exact ⟨fun _ => rfl, nofun⟩
  | fail =>
      constructor
      · show OutboxEvent.failedStatus _ = _ → _
        unfold OutboxEvent.failedStatus
        split <;> exact nofun
      · show OutboxEvent.failedStatus _ ≠ _
        unfold OutboxEvent.failedStatus
        split <;> exact nofun

/-! ## The rows of a run -/

/-- A row in the table is found under its id. -/
theorem find?_of_mem {t : Events} {e : OutboxEvent} (h : e ∈ t.rows) : t.find? e.id = some e :=
  Table.find?_eq_some.mpr ⟨h, List.mem_singleton.mpr rfl⟩

/-- An update of rows that keeps their ids. -/
theorem exists_id_of_updated {rows : List OutboxEvent} {p : OutboxEvent → Bool}
    {f : OutboxEvent → OutboxEvent} {e' : OutboxEvent}
    (h : e' ∈ rows.map fun e => if p e then f e else e) (hid : ∀ e, (f e).id = e.id) :
    ∃ e ∈ rows, e.id = e'.id := by
  obtain ⟨e, he, rfl⟩ := List.mem_map.mp h
  refine ⟨e, he, ?_⟩
  split
  · exact (hid e).symm
  · rfl

theorem exists_id_of_step {w w' : World} {a : Action} (h : step w a = some w') {e' : OutboxEvent}
    (he' : e' ∈ w'.events.rows) :
    (∃ e ∈ w.events.rows, e.id = e'.id) ∨
      ∃ id now params, a = .create id now params ∧ e' = newOutboxEvent id now params := by
  cases takes_of_step h with
  | @create id now params t ht =>
      have hrows := (Table.insert?_eq_some.mp ht).2
      have he' : e' ∈ t.rows := he'
      rw [hrows, List.mem_append, List.mem_singleton] at he'
      rcases he' with hold | rfl
      · exact Or.inl ⟨e', hold, rfl⟩
      · exact Or.inr ⟨id, now, params, rfl, rfl⟩
  | claim _ _ | recover _ | deadLetter _ => exact Or.inl (exists_id_of_updated he' fun _ => rfl)
  | complete _ | fail _ | release _ => exact Or.inl (exists_id_of_updated he' fun _ => rfl)
  | poll | claimFails | stops _ | hands _ | releaseFails => exact Or.inl ⟨e', he', rfl⟩
  | sendResolves _ _ | sendRejects _ | completeFails _ | failFails =>
      exact Or.inl ⟨e', he', rfl⟩
  | accept _ | shutdown | crash | recoveryFails => exact Or.inl ⟨e', he', rfl⟩

/-- A row after a step was there, or it was created. -/
theorem row_of_step {w w' : World} {a : Action} (h : step w a = some w') {e' : OutboxEvent}
    (he' : e' ∈ w'.events.rows) :
    (∃ e ∈ w.events.rows, RowStep w a e e') ∨
      ∃ id now params, a = .create id now params ∧ e' = newOutboxEvent id now params := by
  rcases exists_id_of_step h he' with ⟨e, he, hid⟩ | hcreated
  · obtain ⟨e'', hfind, hrow⟩ := step_row h (find?_of_mem he)
    rw [hid, find?_of_mem he'] at hfind
    cases hfind
    exact Or.inl ⟨e, he, hrow⟩
  · exact Or.inr hcreated

/-! ## Jobs -/

/-- The job of an event. -/
structure Carries (job : Job) (e : OutboxEvent) : Prop where
  key : job.key = outboxJobKey e.id
  queue : job.envelope.queue = queueFor e.eventType
  payload : job.envelope.payload = e.payload

theorem carries_jobFor (e : OutboxEvent) (now : Date) : Carries (jobFor e now) e := ⟨rfl, rfl, rfl⟩

theorem Carries.sameContent {job : Job} {a b : OutboxEvent} (h : Carries job a)
    (hab : SameContent a b) : Carries job b :=
  ⟨hab.id ▸ h.key, hab.eventType ▸ h.queue, hab.payload ▸ h.payload⟩

/-- The job an action adds to the queue. -/
def Action.accepts? : Action → Option Job
  | .accept job => some job
  | _ => none

/-- What a step does to the jobs. -/
inductive JobStep (w : World) (a : Action) (w' : World) : Prop where
  | same : a.accepts? = none → w'.inFlight = w.inFlight → w'.accepted = w.accepted →
      JobStep w a w'
  | handed {i : WorkerId} {event : OutboxEvent} {now : Date} :
      a.accepts? = none → event ∈ (w.worker i).poll.events →
      w'.inFlight = jobFor event now :: w.inFlight → w'.accepted = w.accepted → JobStep w a w'
  | accepted {job : Job} :
      a.accepts? = some job → job ∈ w.inFlight → w'.inFlight = w.inFlight.erase job →
      w'.accepted = enqueue w.accepted job → JobStep w a w'

theorem jobStep_of_step {w w' : World} {a : Action} (h : step w a = some w') : JobStep w a w' := by
  cases takes_of_step h with
  | @hands i isRunning now event rest hpoll =>
      have hmem : event ∈ (w.worker i).poll.events := by
        rw [hpoll]
        exact List.mem_cons_self
      exact .handed rfl hmem rfl rfl
  | accept hmem => exact .accepted rfl hmem rfl rfl
  | create _ | poll | claim _ _ | claimFails | stops _ => exact .same rfl rfl rfl
  | release _ | releaseFails | sendResolves _ _ | sendRejects _ => exact .same rfl rfl rfl
  | complete _ | completeFails _ | fail _ | failFails => exact .same rfl rfl rfl
  | shutdown | crash | recover _ | deadLetter _ | recoveryFails => exact .same rfl rfl rfl

/-- The jobs of one queue have different keys. -/
def OnePerKey (jobs : List Job) : Prop :=
  ∀ j ∈ jobs, ∀ j' ∈ jobs, j.envelope.queue = j'.envelope.queue → j.key = j'.key → j = j'

theorem mem_enqueue {jobs : List Job} {job j : Job} (h : j ∈ enqueue jobs job) :
    j ∈ jobs ∨ j = job ∧ ¬ HoldsJob jobs job.envelope.queue job.key := by
  unfold enqueue at h
  split at h
  · exact Or.inl h
  next hfree =>
    rcases List.mem_cons.mp h with rfl | hold
    · exact Or.inr ⟨rfl, hfree⟩
    · exact Or.inl hold

theorem OnePerKey.enqueue {jobs : List Job} (h : OnePerKey jobs) (job : Job) :
    OnePerKey (enqueue jobs job) := by
  intro j hj j' hj' hqueue hkey
  rcases mem_enqueue hj with hold | ⟨rfl, hfree⟩
  · rcases mem_enqueue hj' with hold' | ⟨rfl, hfree⟩
    · exact h j hold j' hold' hqueue hkey
    · exact absurd ⟨j, hold, hqueue, hkey⟩ hfree
  · rcases mem_enqueue hj' with hold' | ⟨rfl, _⟩
    · exact absurd ⟨j', hold', hqueue.symm, hkey.symm⟩ hfree
    · rfl

/-! ## The invariant -/

/-- Some row says what this event says. -/
def Stored (t : Events) (e : OutboxEvent) : Prop := ∃ row ∈ t.rows, SameContent row e

/-- Some row is carried by this job. -/
def Backed (t : Events) (job : Job) : Prop := ∃ row ∈ t.rows, Carries job row

structure Copies (w : World) : Prop where
  polls : ∀ i, ∀ e ∈ (w.worker i).poll.events, Stored w.events e
  inFlight : ∀ job ∈ w.inFlight, Backed w.events job
  accepted : ∀ job ∈ w.accepted, Backed w.events job
  onePerKey : OnePerKey w.accepted
  sound : ∀ e ∈ w.events.rows, e.Sound

theorem copies_init : Copies World.init where
  polls _ _ h := nomatch h
  inFlight _ h := nomatch h
  accepted _ h := nomatch h
  onePerKey _ h := nomatch h
  sound _ h := nomatch h

section Step

variable {w w' : World} {a : Action}

theorem Stored.step {e : OutboxEvent} (hs : Stored w.events e) (h : step w a = some w') :
    Stored w'.events e := by
  obtain ⟨row, hrow, hsame⟩ := hs
  obtain ⟨row', hfind, hstep⟩ := step_row h (find?_of_mem hrow)
  exact ⟨row', (Table.find?_eq_some.mp hfind).1, hstep.sameContent.symm.trans hsame⟩

theorem Backed.step {job : Job} (hb : Backed w.events job) (h : step w a = some w') :
    Backed w'.events job := by
  obtain ⟨row, hrow, hcarries⟩ := hb
  obtain ⟨row', hfind, hstep⟩ := step_row h (find?_of_mem hrow)
  exact ⟨row', (Table.find?_eq_some.mp hfind).1, hcarries.sameContent hstep.sameContent⟩

theorem backed_jobFor {e : OutboxEvent} (hs : Stored w.events e) (now : Date) :
    Backed w.events (jobFor e now) := by
  obtain ⟨row, hrow, hsame⟩ := hs
  exact ⟨row, hrow, (carries_jobFor e now).sameContent hsame.symm⟩

/-- Every step keeps the copies. -/
theorem copies_step (hw : Copies w) (h : step w a = some w') : Copies w' where
  polls i e he := by
    rcases step_events h i with hsub | ⟨now, locked, picked, _, _, hevents, hpoll⟩
    · exact (hw.polls i e (hsub.subset he)).step h
    · rw [hpoll] at he
      obtain ⟨id, _, hfind⟩ := List.mem_filterMap.mp he
      have hfind : w'.events.find? id = some e := hevents ▸ hfind
      exact ⟨e, (Table.find?_eq_some.mp hfind).1, .rfl⟩
  inFlight job hjob := by
    refine Backed.step ?_ h
    cases jobStep_of_step h with
    | same _ hin _ => exact hw.inFlight job (hin ▸ hjob)
    | handed _ hmem hin _ =>
        rw [hin] at hjob
        rcases List.mem_cons.mp hjob with rfl | hold
        · exact backed_jobFor (hw.polls _ _ hmem) _
        · exact hw.inFlight job hold
    | accepted _ _ hin _ =>
        rw [hin] at hjob
        exact hw.inFlight job (List.mem_of_mem_erase hjob)
  accepted job hjob := by
    refine Backed.step ?_ h
    cases jobStep_of_step h with
    | same _ _ hacc => exact hw.accepted job (hacc ▸ hjob)
    | handed _ _ _ hacc => exact hw.accepted job (hacc ▸ hjob)
    | accepted _ hmem _ hacc =>
        rw [hacc] at hjob
        rcases mem_enqueue hjob with hold | ⟨rfl, _⟩
        · exact hw.accepted job hold
        · exact hw.inFlight job hmem
  onePerKey := by
    cases jobStep_of_step h with
    | same _ _ hacc => exact hacc ▸ hw.onePerKey
    | handed _ _ _ hacc => exact hacc ▸ hw.onePerKey
    | accepted _ _ _ hacc => exact hacc ▸ hw.onePerKey.enqueue _
  sound e he := by
    rcases row_of_step h he with ⟨e₀, he₀, hrow⟩ | ⟨id, now, params, _, rfl⟩
    · exact hrow.sound (hw.sound e₀ he₀)
    · exact sound_newOutboxEvent id now params

end Step

end Vynor.Outbox
