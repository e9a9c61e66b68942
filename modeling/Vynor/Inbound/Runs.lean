import Vynor.Inbound.Process
import Vynor.Lib.Machine

/-!
# Overlapping runs

Any number of runs of `process`, for any events, on one table.  A run takes one
step at an await, and other runs move between two of them.

`since` is the history a run does not look at: the status writes that were made
after it read its event, latest first.
-/

namespace Vynor.Inbound

open Lib (Table Machine)
open Journal (ProviderEvent ProviderEventStatus EventKey)

abbrev CallId := Nat

/-- A status write, with the event it went to. -/
structure StatusWrite where
  eventId : Id
  status : ProviderEventStatus
deriving DecidableEq, Repr

namespace Runs

structure World where
  events : ProviderEvents
  call : CallId → Stage
  since : CallId → List StatusWrite

/-- The same world with one run at another point. -/
def World.setCall (w : World) (i : CallId) (s : Stage) : World :=
  { w with call := Function.update w.call i s }

/-- The same world after a status write that every run may have missed. -/
def World.write (w : World) (events : ProviderEvents) (x : StatusWrite) : World :=
  { w with events := events, since := fun j => x :: w.since j }

/-- The same world with a run that has read its event just now. -/
def World.reads (w : World) (i : CallId) : World :=
  { w with since := Function.update w.since i [] }

/-- What can happen next, with what the environment answers.  In `lose` a status
write is made and its answer is lost, so the run sees an error. -/
inductive Action where
  | journal (event : ProviderEvent)
  | start (i : CallId) (eventId : Id)
  | read (i : CallId) (deleted : Bool)
  | answer (i : CallId) (answer : Answer)
  | write (i : CallId) (now : Date)
  | lose (i : CallId) (now : Date) (error : ProcessError)
  | throws (i : CallId) (error : ProcessError)
  | crash (i : CallId)
deriving DecidableEq, Repr

/-- The run whose status write an action makes. -/
def Action.writer? : Action → Option CallId
  | .write i _ => some i
  | .lose i _ _ => some i
  | _ => none

/-- The world once the next status write of a run is made, and the point the
run reaches when it learns of it. -/
def World.writes? (w : World) (i : CallId) (now : Date) : Option (World × Stage) :=
  match (w.call i).write? with
  | some (event, status, next) =>
      (transitionProviderEventStatus w.events event.id status (w.call i).lastError
        (w.call i).incrementAttempts now).map fun events => (w.write events ⟨event.id, status⟩, next)
  | none => none

/-- One action.  An event is journaled as `RECEIVED`. -/
def step (w : World) : Action → Option World
  | .journal event =>
      if event.status = .received then
        (w.events.insert? event).map fun events => { w with events := events }
      else none
  | .start i eventId =>
      match w.call i with
      | .idle => some (w.setCall i (.starting eventId))
      | _ => none
  | .read i deleted =>
      match w.call i with
      | .starting eventId =>
          some ((w.reads i).setCall i (afterRead deleted (w.events.find? (.id eventId))))
      | _ => none
  | .answer i answer => (afterAnswer (w.call i) answer).map fun stage => w.setCall i stage
  | .write i now => (w.writes? i now).map fun (w', next) => w'.setCall i next
  | .lose i now error =>
      (w.writes? i now).bind fun (w', _) =>
        (afterThrow (w.call i) error).map fun stage => w'.setCall i stage
  | .throws i error => (afterThrow (w.call i) error).map fun stage => w.setCall i stage
  | .crash i => if w.call i = .idle then none else some (w.setCall i .crashed)

/-- The runs as a machine. -/
def machine : Machine World Action := ⟨step⟩

@[simp] theorem machine_step (w : World) (a : Action) : machine.step w a = step w a := rfl

/-- No event, and no run. -/
def World.init : World := ⟨.empty, fun _ => .idle, fun _ => []⟩

section SetCall

variable (w : World) (i : CallId) (s : Stage)

@[simp] theorem World.setCall_events : (w.setCall i s).events = w.events := rfl

@[simp] theorem World.setCall_since : (w.setCall i s).since = w.since := rfl

@[simp] theorem World.setCall_self : (w.setCall i s).call i = s := by
  simp [World.setCall]

end SetCall

@[simp] theorem World.reads_events (w : World) (i : CallId) : (w.reads i).events = w.events := rfl

@[simp] theorem World.reads_call (w : World) (i : CallId) : (w.reads i).call = w.call := rfl

@[simp] theorem World.reads_since_self (w : World) (i : CallId) : (w.reads i).since i = [] := by
  simp [World.reads]

theorem World.reads_since_other (w : World) {i j : CallId} (h : j ≠ i) :
    (w.reads i).since j = w.since j := by
  simp [World.reads, h]

@[simp] theorem World.write_events (w : World) (events : ProviderEvents) (x : StatusWrite) :
    (w.write events x).events = events := rfl

@[simp] theorem World.write_call (w : World) (events : ProviderEvents) (x : StatusWrite) :
    (w.write events x).call = w.call := rfl

@[simp] theorem World.write_since (w : World) (events : ProviderEvents) (x : StatusWrite)
    (i : CallId) : (w.write events x).since i = x :: w.since i := rfl

theorem World.setCall_other (w : World) {i j : CallId} (s : Stage) (h : j ≠ i) :
    (w.setCall i s).call j = w.call j := by
  simp [World.setCall, h]

/-! ## What a step does -/

/-- A step journals an event, reads one, writes a status, or leaves the table
and the history alone. -/
inductive Effect (w : World) (a : Action) (w' : World) : Prop where
  | journaled {event : ProviderEvent} {events : ProviderEvents} :
      a = .journal event → event.status = .received → w.events.insert? event = some events →
      w' = { w with events := events } → Effect w a w'
  | read {i : CallId} {deleted : Bool} {eventId : Id} :
      a = .read i deleted → w.call i = .starting eventId →
      w' = (w.reads i).setCall i (afterRead deleted (w.events.find? (.id eventId))) →
      Effect w a w'
  | wrote {i : CallId} {now : Date} {event : ProviderEvent} {status : ProviderEventStatus}
      {next s : Stage} {events : ProviderEvents} :
      a.writer? = some i → (w.call i).write? = some (event, status, next) →
      transitionProviderEventStatus w.events event.id status (w.call i).lastError
        (w.call i).incrementAttempts now = some events →
      (s.event? = some event ∨ s.event? = none ∧ s.eventId? = none) → s ≠ .idle →
      (s = .returned → next = .returned) →
      w' = (w.write events ⟨event.id, status⟩).setCall i s → Effect w a w'
  | moved {i : CallId} {s : Stage} :
      a.writer? = none → s ≠ .returned → s ≠ .idle →
      (s.event? = (w.call i).event? ∨ s.event? = none) →
      (s.eventId? = (w.call i).eventId? ∨ s.eventId? = none ∨
        ∃ eventId, a = .start i eventId ∧ w.call i = .idle ∧ s = .starting eventId) →
      w' = w.setCall i s → Effect w a w'

/-- A run that throws stays at its event or ends. -/
theorem event?_afterThrow {stage stage' : Stage} {error : ProcessError}
    (h : afterThrow stage error = some stage') :
    (stage'.event? = stage.event? ∧ stage'.eventId? = stage.eventId? ∨
      stage'.event? = none ∧ stage'.eventId? = none) ∧ stage' ≠ .returned ∧ stage' ≠ .idle := by
  cases stage with
  | starting | discarding | claiming | catching =>
      cases h
      exact ⟨Or.inr ⟨rfl, rfl⟩, nofun, nofun⟩
  | settling =>
      cases h
      exact ⟨Or.inl ⟨rfl, rfl⟩, nofun, nofun⟩
  | _ => cases h

/-- An answer leaves a run under way. -/
theorem afterAnswer_ne {stage stage' : Stage} {answer : Answer}
    (h : afterAnswer stage answer = some stage') : stage' ≠ .returned ∧ stage' ≠ .idle := by
  obtain ⟨event, _, hto⟩ := afterAnswer_cases h
  obtain ⟨results, tally, rfl⟩ | ⟨error, rfl⟩ | ⟨tally, rfl⟩ := hto
  · exact ⟨nofun, nofun⟩
  · exact ⟨nofun, nofun⟩
  · exact ⟨nofun, nofun⟩

/-- A write leaves a run under way, or ends it. -/
theorem write?_ne_idle {stage next : Stage} {event : ProviderEvent} {status : ProviderEventStatus}
    (h : stage.write? = some (event, status, next)) : next ≠ .idle := by
  cases stage with
  | discarding | claiming | settling =>
      cases h
      nofun
  | catching =>
      cases h
      split <;> simp
  | _ => cases h

theorem World.writes?_eq_some {w w' : World} {i : CallId} {now : Date} {next : Stage} :
    w.writes? i now = some (w', next) ↔ ∃ event status events,
      (w.call i).write? = some (event, status, next) ∧
      transitionProviderEventStatus w.events event.id status (w.call i).lastError
        (w.call i).incrementAttempts now = some events ∧
      w' = w.write events ⟨event.id, status⟩ := by
  unfold World.writes?
  cases hwrite : (w.call i).write? with
  | none => simp
  | some x =>
      obtain ⟨event, status, next'⟩ := x
      constructor
      · intro h
        obtain ⟨events, hevents, heq⟩ := Option.map_eq_some_iff.mp h
        cases heq
        exact ⟨event, status, events, rfl, hevents, rfl⟩
      · rintro ⟨event', status', events, heq, hevents, rfl⟩
        cases heq
        simp [hevents]

theorem effect_of_step {w w' : World} {a : Action} (h : step w a = some w') : Effect w a w' := by
  cases a with
  | journal event =>
      simp only [step] at h
      split at h
      next hstatus =>
        obtain ⟨events, hins, rfl⟩ := Option.map_eq_some_iff.mp h
        exact .journaled rfl hstatus hins rfl
      · cases h
  | start i eventId =>
      simp only [step] at h
      split at h
      next hidle =>
        cases h
        exact .moved rfl (by simp) (by simp) (Or.inr rfl)
          (Or.inr (Or.inr ⟨eventId, rfl, hidle, rfl⟩)) rfl
      · cases h
  | read i deleted =>
      simp only [step] at h
      split at h
      next hcall =>
        cases h
        exact .read rfl hcall rfl
      · cases h
  | answer i answer =>
      obtain ⟨stage, hstage, rfl⟩ := Option.map_eq_some_iff.mp h
      obtain ⟨hevent, hid⟩ := event?_afterAnswer hstage
      obtain ⟨hne, hne'⟩ := afterAnswer_ne hstage
      exact .moved rfl hne hne' (Or.inl hevent) (Or.inl hid) rfl
  | write i now =>
      obtain ⟨⟨w₁, next⟩, hw, rfl⟩ := Option.map_eq_some_iff.mp h
      obtain ⟨event, status, events, hwrite, hevents, rfl⟩ := World.writes?_eq_some.mp hw
      exact .wrote rfl hwrite hevents (event?_after_write? hwrite) (write?_ne_idle hwrite) id rfl
  | lose i now error =>
      obtain ⟨⟨w₁, next⟩, hw, h⟩ := Option.bind_eq_some_iff.mp h
      obtain ⟨stage, hstage, rfl⟩ := Option.map_eq_some_iff.mp h
      obtain ⟨event, status, events, hwrite, hevents, rfl⟩ := World.writes?_eq_some.mp hw
      obtain ⟨hstays, hne, hne'⟩ := event?_afterThrow hstage
      refine .wrote rfl hwrite hevents (hstays.imp_left fun h => ?_) hne' (fun hr => absurd hr hne) rfl
      rw [h.1, event?_of_write? hwrite]
  | throws i error =>
      obtain ⟨stage, hstage, rfl⟩ := Option.map_eq_some_iff.mp h
      obtain ⟨⟨hevent, hid⟩ | ⟨hevent, hid⟩, hne, hne'⟩ := event?_afterThrow hstage
      · exact .moved rfl hne hne' (Or.inl hevent) (Or.inl hid) rfl
      · exact .moved rfl hne hne' (Or.inr hevent) (Or.inr (Or.inl hid)) rfl
  | crash i =>
      simp only [step] at h
      split at h
      · cases h
      · cases h
        exact .moved rfl (by simp) (by simp) (Or.inr rfl) (Or.inr (Or.inl rfl)) rfl

/-! ## What a step does to a status and to a run -/

/-- The status write an action makes. -/
def World.written? (w : World) (a : Action) : Option StatusWrite :=
  a.writer?.bind fun i => (w.call i).write?.map fun (event, status, _) => ⟨event.id, status⟩

/-- An action other than journaling. -/
def Action.isJournal : Action → Bool
  | .journal _ => true
  | _ => false

section Step

variable {w w' : World} {a : Action}

/-- A status changes by the write of a run only. -/
theorem statusOf?_of_step (h : step w a = some w') (hinner : a.isJournal = false) (id : Id) :
    statusOf? w'.events id = statusOf? w.events id ∨
      ∃ x, w.written? a = some x ∧ x.eventId = id ∧ statusOf? w'.events id = some x.status := by
  cases effect_of_step h with
  | journaled ha =>
      subst ha
      cases hinner
  | read _ _ hw' | moved _ _ _ _ _ hw' =>
      subst hw'
      exact Or.inl rfl
  | @wrote i now event status next s events ha hwrite htrans _ _ _ hw' =>
      subst hw'
      rw [World.setCall_events, World.write_events, statusOf?_transition htrans]
      by_cases hid : id = event.id
      · exact Or.inr ⟨⟨event.id, status⟩, by simp [World.written?, ha, hwrite], hid.symm, if_pos hid⟩
      · exact Or.inl (if_neg hid)

/-- Runs neither add nor remove an event. -/
theorem isSome_statusOf?_of_step (h : step w a = some w') (hinner : a.isJournal = false) (id : Id) :
    (statusOf? w'.events id).isSome = (statusOf? w.events id).isSome := by
  cases effect_of_step h with
  | journaled ha =>
      subst ha
      cases hinner
  | read _ _ hw' | moved _ _ _ _ _ hw' =>
      subst hw'
      rfl
  | @wrote i now event status next s events ha hwrite htrans _ _ _ hw' =>
      subst hw'
      rw [World.setCall_events, World.write_events, statusOf?_transition htrans]
      by_cases hid : id = event.id
      · rw [if_pos hid, hid, isSome_of_transition htrans]
        rfl
      · rw [if_neg hid]

/-- A run that is under way stays so, at its event, or it ends. -/
theorem call_of_step (h : step w a = some w') (k : CallId) (hk : w.call k ≠ .idle) :
    w'.call k ≠ .idle ∧
      ∀ id, (w'.call k).eventId? = some id → (w.call k).eventId? = some id := by
  -- Where another run moved, this one has not.
  have hother : ∀ {i : CallId} {s : Stage} {v : World}, k ≠ i → v.call = w.call →
      w' = v.setCall i s → w'.call k = w.call k := by
    rintro i s v hki hv rfl
    rw [World.setCall_other v s hki, hv]
  cases effect_of_step h with
  | journaled _ _ _ hw' =>
      subst hw'
      exact ⟨hk, fun _ hid => hid⟩
  | @read i deleted eventId _ hcall hw' =>
      by_cases hki : k = i
      · subst hw' hki
        rw [World.setCall_self, hcall]
        rcases afterRead_cases deleted (w.events.find? (.id eventId)) with
          ⟨hr, _⟩ | ⟨e, hfind, _, hr | hr⟩ <;> rw [hr]
        · exact ⟨nofun, nofun⟩
        · exact ⟨nofun, fun _ hid => id_of_find? hfind ▸ hid⟩
        · exact ⟨nofun, fun _ hid => id_of_find? hfind ▸ hid⟩
      · rw [hother hki (World.reads_call w i) hw']
        exact ⟨hk, fun _ hid => hid⟩
  | @wrote i _ event status next s events _ hwrite _ hstays hidle _ hw' =>
      by_cases hki : k = i
      · subst hw' hki
        rw [World.setCall_self]
        refine ⟨hidle, fun id hid => ?_⟩
        rcases hstays with hstays | ⟨_, hnone⟩
        · rw [eventId?_of_event? hstays] at hid
          rw [eventId?_of_event? (event?_of_write? hwrite), hid]
        · rw [hnone] at hid
          cases hid
      · rw [hother hki (World.write_call w events ⟨event.id, status⟩) hw']
        exact ⟨hk, fun _ hid => hid⟩
  | @moved i s _ _ hidle _ hstays hw' =>
      by_cases hki : k = i
      · subst hw' hki
        rw [World.setCall_self]
        refine ⟨hidle, fun id hid => ?_⟩
        rcases hstays with hsame | hnone | ⟨_, _, hwasIdle, _⟩
        · rw [← hsame, hid]
        · rw [hnone] at hid
          cases hid
        · exact absurd hwasIdle hk
      · rw [hother hki rfl hw']
        exact ⟨hk, fun _ hid => hid⟩

end Step

end Runs

end Vynor.Inbound
