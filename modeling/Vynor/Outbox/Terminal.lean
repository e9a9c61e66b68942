import Vynor.Outbox.Dispatcher

/-!
# Terminal outbox events

`COMPLETED` and `DEAD_LETTER` are meant to be final.  Claims, recovery and
`releaseUnattempted` only take rows in another status, so they keep them.  The
completing and the failing update select their row by id alone, and a worker
that comes late, after its lease ran out and another worker finished the event,
writes over the final status.

`NoStaleWrite` is the exact condition on the row such an update finds.
-/

namespace Vynor.Outbox

open Lib (Table Machine)

/-- Every row in a terminal status keeps it. -/
def KeepsTerminal (w : World) (_ : Action) (w' : World) : Prop :=
  ∀ id e, w.events.find? id = some e → e.status.terminal = true →
    ∃ e', w'.events.find? id = some e' ∧ e'.status = e.status

/-- What an update by id must find for a terminal status to survive it: no
completing update lands on a dead letter, and no failing update lands on a
completed row, or on a dead letter that it would put back to `PENDING`. -/
def NoStaleWrite (w : World) (a : Action) (_ : World) : Prop :=
  match a with
  | .complete i _ _ => ∀ event rest, (w.worker i).poll = .completing event rest →
      ∀ e, w.events.find? event.id = some e → e.status ≠ .deadLetter
  | .fail i => ∀ event errorMessage rest, (w.worker i).poll = .failing event errorMessage rest →
      ∀ e, w.events.find? event.id = some e →
        e.status ≠ .completed ∧ (e.status = .deadLetter → event.exhausted = true)
  | _ => True

@[simp] theorem OutboxEvent.failedStatus_of_exhausted {event : OutboxEvent}
    (h : event.exhausted = true) : event.failedStatus = .deadLetter := if_pos h

theorem OutboxEvent.failedStatus_ne_completed (event : OutboxEvent) :
    event.failedStatus ≠ .completed := by
  unfold OutboxEvent.failedStatus
  split <;> simp

/-- A failing update dead-letters its row only on the last attempt. -/
theorem OutboxEvent.exhausted_of_failedStatus {event : OutboxEvent}
    (h : event.failedStatus = .deadLetter) : event.exhausted = true := by
  unfold OutboxEvent.failedStatus at h
  split at h
  · assumption
  · cases h

/-- The row of an id after a completing update of that id. -/
theorem find?_of_complete {w w' : World} {i : WorkerId} {processedAt dispatchedAt : Date}
    {event e : OutboxEvent} {rest : List OutboxEvent}
    (h : step w (.complete i processedAt dispatchedAt) = some w')
    (hpoll : (w.worker i).poll = .completing event rest)
    (he : w.events.find? event.id = some e) :
    w'.events.find? event.id = some (e.complete processedAt dispatchedAt) := by
  simp only [step, hpoll, Option.some.injEq] at h
  subst h
  show (markCompleted w.events event.id processedAt dispatchedAt).find? event.id = _
  rw [find?_markCompleted event.id processedAt dispatchedAt he, id_of_find? he]
  simp

/-- The row of an id after a failing update of that id. -/
theorem find?_of_fail {w w' : World} {i : WorkerId} {errorMessage : String}
    {event e : OutboxEvent} {rest : List OutboxEvent} (h : step w (.fail i) = some w')
    (hpoll : (w.worker i).poll = .failing event errorMessage rest)
    (he : w.events.find? event.id = some e) :
    w'.events.find? event.id = some (e.fail event.failedStatus errorMessage) := by
  simp only [step, hpoll, Option.some.injEq] at h
  subst h
  show (markFailed w.events event errorMessage).find? event.id = _
  rw [find?_markFailed event errorMessage he, id_of_find? he]
  simp

/-- A step keeps the terminal statuses exactly when it is no stale write. -/
theorem keepsTerminal_iff {w w' : World} {a : Action} (h : step w a = some w') :
    KeepsTerminal w a w' ↔ NoStaleWrite w a w' := by
  constructor
  · intro hk
    cases a with
    | complete i processedAt dispatchedAt =>
        intro event rest hpoll e he hdead
        obtain ⟨e', he', hstatus⟩ := hk event.id e he (by rw [hdead]; rfl)
        rw [find?_of_complete h hpoll he] at he'
        cases he'
        rw [hdead] at hstatus
        cases hstatus
    | fail i =>
        intro event errorMessage rest hpoll e he
        have hrow := find?_of_fail h hpoll he
        refine ⟨fun hdone => ?_, fun hdead => ?_⟩
        · obtain ⟨e', he', hstatus⟩ := hk event.id e he (by rw [hdone]; rfl)
          rw [hrow] at he'
          cases he'
          exact event.failedStatus_ne_completed (hstatus.trans hdone)
        · obtain ⟨e', he', hstatus⟩ := hk event.id e he (by rw [hdead]; rfl)
          rw [hrow] at he'
          cases he'
          exact OutboxEvent.exhausted_of_failedStatus (hstatus.trans hdead)
    | _ => trivial
  · intro hn id e he hterm
    obtain ⟨e', he', hrow⟩ := step_row h he
    refine ⟨e', he', ?_⟩
    cases hrow with
    | same => rfl
    | claim _ hdue =>
        have hpending : e.status = .pending := by
          simp only [OutboxEvent.due, Bool.and_eq_true, decide_eq_true_eq] at hdue
          exact hdue.1
        rw [hpending] at hterm
        cases hterm
    | recover horphan _ =>
        rw [(OutboxEvent.orphaned_iff.mp horphan).1] at hterm
        cases hterm
    | bury horphan _ =>
        rw [(OutboxEvent.orphaned_iff.mp horphan).1] at hterm
        cases hterm
    | @complete i processedAt dispatchedAt _ event rest hpoll hid =>
        have hne := hn event rest hpoll e (by rw [← hid, id_of_find? he]; exact he)
        cases hs : e.status with
        | completed => rfl
        | deadLetter => exact absurd hs hne
        | pending => rw [hs] at hterm; cases hterm
        | processing => rw [hs] at hterm; cases hterm
        | failed => rw [hs] at hterm; cases hterm
    | @fail i errorMessage _ event rest hpoll hid =>
        have hne := hn event errorMessage rest hpoll e (by rw [← hid, id_of_find? he]; exact he)
        cases hs : e.status with
        | completed => exact absurd hs hne.1
        | deadLetter =>
            show event.failedStatus = _
            rw [OutboxEvent.failedStatus_of_exhausted (hne.2 hs)]
        | pending => rw [hs] at hterm; cases hterm
        | processing => rw [hs] at hterm; cases hterm
        | failed => rw [hs] at hterm; cases hterm
    | release _ hheld =>
        simp only [OutboxEvent.claimHeld, Bool.and_eq_true, decide_eq_true_eq] at hheld
        rw [hheld.1.2] at hterm
        cases hterm

/-- Along every run, from any world, the terminal statuses stay exactly as
long as no update by id is stale. -/
theorem along_keepsTerminal_iff (w : World) (as : List Action) :
    machine.Along KeepsTerminal w as ↔ machine.Along NoStaleWrite w as :=
  Machine.along_iff (I := fun _ => True) (fun _ _ _ _ _ => trivial)
    (fun _ _ _ _ h => keepsTerminal_iff h) trivial

/-! ## A late update -/

/-- The event of the run below. -/
def lateEvent : CreateOutboxEventParams where
  workspaceId := "workspace"
  eventType := "webhook.received"
  payload := [("providerEventId", "event")]
  correlationId := "correlation"

/-- Worker `a` claims the event and hands its job to the queue.  Its lease runs
out, worker `b` recovers, claims and completes the event, and then the send of
`a` rejects. -/
def lateRun : List Action :=
  [.create "e" 0 lateEvent, .poll "a", .claim "a" 0 [] ["e"], .enter "a" true 0,
    .recover 60001, .deadLetter 60001,
    .poll "b", .claim "b" 60001 [] ["e"], .enter "b" true 60001,
    .accept (jobFor (newOutboxEvent "e" 0 lateEvent) 60001), .sendResolves "b",
    .complete "b" 60002 60002, .sendRejects "a" "timeout"]

/-- The status of a row. -/
def World.status (w : World) (id : Id) : Option Status := (w.events.find? id).map OutboxEvent.status

/-- The failing update of `a` puts the completed event back to `PENDING`. -/
theorem lateRun_reopens :
    ∃ w w', machine.run World.init lateRun = some w ∧ machine.step w (.fail "a") = some w' ∧
      w.status "e" = some .completed ∧ w'.status "e" = some .pending := by
  have hlast : ((machine.run World.init lateRun).bind fun w =>
      (machine.step w (.fail "a")).map fun w' => (w.status "e", w'.status "e"))
        = some (some .completed, some .pending) := by decide +kernel
  obtain ⟨w, w', hw, hw', hstatus⟩ := machine.exists_last hlast
  rw [Prod.mk.injEq] at hstatus
  exact ⟨w, w', hw, hw', hstatus.1, hstatus.2⟩

/-- Terminal statuses are not absorbing on every run. -/
theorem not_keepsTerminal : ¬ ∀ as, machine.Along KeepsTerminal World.init as := by
  intro h
  obtain ⟨w, w', hw, hw', hdone, hopen⟩ := lateRun_reopens
  obtain ⟨e, he, hs⟩ := Option.map_eq_some_iff.mp hdone
  obtain ⟨e', he', hs'⟩ := (h (lateRun ++ [.fail "a"])).last hw hw' "e" e he (by rw [hs]; rfl)
  rw [World.status, he', Option.map_some, hs', hs] at hopen
  cases hopen

end Vynor.Outbox
