import Vynor.Inbound.Runs

/-!
# Finished provider events

`PROCESSED` and `IGNORED` are meant to be left by a replay only, and `process`
returns at once from an event it finds there.  The check is on what the run
read.  A run that read its event before another run finished it goes on to write
over the final status, since its writes go by the id alone.

`NotOvertaken` is the exact condition on a write.  The history `since` of a run
agrees with the table on every status that is final (`Abreast`), and a write that
meets the condition keeps it so.
-/

namespace Vynor.Inbound.Runs

open Lib (Machine)
open Journal (ProviderEvent ProviderEventStatus)

/-- Every finished event keeps its status. -/
def KeepsFinished (w : World) (_ : Action) (w' : World) : Prop :=
  ∀ id status, statusOf? w.events id = some status → finished status = true →
    statusOf? w'.events id = some status

/-- Where a run writes a status, a final status that its event was given after
the run read it is that same status. -/
def NotOvertaken (w : World) (a : Action) (_ : World) : Prop :=
  ∀ i event status next, a.writer? = some i → (w.call i).write? = some (event, status, next) →
    ∀ x ∈ w.since i, x.eventId = event.id → finished x.status = true → x.status = status

/-- What a run missed, and the status of the event it works on. -/
structure Abreast (w : World) (i : CallId) (eventId : Id) : Prop where
  /-- A final status that was written after the read is still there. -/
  seen : ∀ x ∈ w.since i, x.eventId = eventId → finished x.status = true →
    statusOf? w.events eventId = some x.status
  /-- A final status that is there was written after the read. -/
  fresh : ∀ status, statusOf? w.events eventId = some status → finished status = true →
    ∃ x ∈ w.since i, x.eventId = eventId ∧ x.status = status

/-- Every run that has read an event is abreast of it. -/
def AllAbreast (w : World) : Prop :=
  ∀ i event, (w.call i).event? = some event → Abreast w i event.id

theorem allAbreast_init : AllAbreast World.init := by
  intro i event h
  cases h

/-- A run that finds its event open has missed nothing. -/
theorem abreast_of_read {w : World} {i : CallId} {deleted : Bool} {eventId : Id}
    {event : ProviderEvent}
    (h : (afterRead deleted (w.events.find? (.id eventId))).event? = some event) (s : Stage) :
    Abreast ((w.reads i).setCall i s) i event.id := by
  obtain ⟨hfind, hopen⟩ := of_event?_afterRead h
  have hid := id_of_find? hfind
  constructor
  · intro x hx
    simp at hx
  · intro status hstatus hfin
    rw [World.setCall_events, World.reads_events, hid, statusOf?_of_find? hfind] at hstatus
    cases hstatus
    rw [hopen] at hfin
    cases hfin

/-- A run stays abreast where neither its history nor a status changes. -/
theorem Abreast.frame {w w' : World} {i : CallId} {eventId : Id} (h : Abreast w i eventId)
    (hsince : w'.since i = w.since i)
    (hstatus : statusOf? w'.events eventId = statusOf? w.events eventId) : Abreast w' i eventId := by
  constructor
  · rw [hsince, hstatus]
    exact h.seen
  · rw [hsince, hstatus]
    exact h.fresh

/-- A run stays abreast when an event is journaled, which is open. -/
theorem Abreast.insert {w : World} {events : ProviderEvents} {j : CallId} {event : ProviderEvent}
    {eventId : Id} (h : Abreast w j eventId) (hins : w.events.insert? event = some events)
    (hopen : finished event.status = false) : Abreast { w with events := events } j eventId := by
  by_cases heq : eventId = event.id
  · subst heq
    constructor
    · intro x hx hid hfin
      have hrow := h.seen x hx hid hfin
      rw [statusOf?_of_insert_new hins] at hrow
      cases hrow
    · intro status hstatus hfin
      have hstatus : statusOf? events event.id = some status := hstatus
      rw [statusOf?_insert hins, if_pos rfl] at hstatus
      cases hstatus
      rw [hopen] at hfin
      cases hfin
  · refine h.frame rfl ?_
    show statusOf? events eventId = _
    rw [statusOf?_insert hins, if_neg heq]

/-- A run stays abreast of its event when a status that no earlier final status
contradicts is written. -/
theorem Abreast.write {w : World} {events : ProviderEvents} {j : CallId} {x : StatusWrite}
    {eventId : Id} (h : Abreast w j eventId)
    (hwrite : ∀ id, statusOf? events id
      = if id = x.eventId then some x.status else statusOf? w.events id)
    (hkept : ∀ status, statusOf? w.events x.eventId = some status → finished status = true →
      status = x.status) :
    Abreast (w.write events x) j eventId := by
  constructor
  · intro y hy hid hfin
    show statusOf? events eventId = some y.status
    rw [hwrite]
    rcases List.mem_cons.mp hy with rfl | hold
    · rw [if_pos hid.symm]
    · have hrow := h.seen y hold hid hfin
      by_cases heq : eventId = x.eventId
      · rw [if_pos heq, ← hkept y.status (heq ▸ hrow) hfin]
      · rw [if_neg heq, hrow]
  · intro status hstatus hfin
    have hstatus : statusOf? events eventId = some status := hstatus
    rw [hwrite] at hstatus
    by_cases heq : eventId = x.eventId
    · rw [if_pos heq] at hstatus
      cases hstatus
      exact ⟨x, List.mem_cons_self, heq.symm, rfl⟩
    · rw [if_neg heq] at hstatus
      obtain ⟨y, hy, hyid, hys⟩ := h.fresh status hstatus hfin
      exact ⟨y, List.mem_cons_of_mem _ hy, hyid, hys⟩

/-- A status write keeps the finished events exactly when it is not overtaken. -/
theorem keepsFinished_iff {w w' : World} {a : Action} (hI : AllAbreast w)
    (h : step w a = some w') : KeepsFinished w a w' ↔ NotOvertaken w a w' := by
  cases effect_of_step h with
  | @journaled event events ha _ hins hw' =>
      subst ha hw'
      constructor
      · intro _ i _ _ _ hi
        cases hi
      · intro _ id status hstatus _
        show statusOf? events id = some status
        rw [statusOf?_insert hins]
        have hne : id ≠ event.id := by
          rintro rfl
          rw [statusOf?_of_insert_new hins] at hstatus
          cases hstatus
        rw [if_neg hne, hstatus]
  | read ha hcall hw' =>
      subst ha hw'
      constructor
      · intro _ i _ _ _ hi
        cases hi
      · intro _ id status hstatus _
        exact hstatus
  | moved ha _ _ _ _ hw' =>
      subst hw'
      constructor
      · intro _ i _ _ _ hi
        rw [ha] at hi
        cases hi
      · intro _ id status hstatus _
        exact hstatus
  | @wrote i now event status next s events ha hwrite htrans _ _ _ hw' =>
      subst hw'
      have habreast := hI i event (event?_of_write? hwrite)
      constructor
      · intro hk i' event' status' next' ha' hwrite' x hx hid hfin
        rw [ha] at ha'
        cases ha'
        rw [hwrite] at hwrite'
        cases hwrite'
        have hrow := habreast.seen x hx hid hfin
        have hrow' := hk _ _ hrow hfin
        rw [World.setCall_events, World.write_events, statusOf?_transition htrans, if_pos rfl] at hrow'
        cases hrow'
        rfl
      · intro hn id status' hstatus hfin
        rw [World.setCall_events, World.write_events, statusOf?_transition htrans]
        by_cases heq : id = event.id
        · subst heq
          obtain ⟨x, hx, hid, rfl⟩ := habreast.fresh status' hstatus hfin
          rw [if_pos rfl, hn i event status next ha hwrite x hx hid hfin]
        · rw [if_neg heq, hstatus]

/-- A step that overtakes nothing leaves every run abreast of its event. -/
theorem allAbreast_of_step {w w' : World} {a : Action} (hI : AllAbreast w)
    (h : step w a = some w') (hn : NotOvertaken w a w') : AllAbreast w' := by
  intro j event' hevent'
  cases effect_of_step h with
  | @journaled event events ha hreceived hins hw' =>
      subst ha hw'
      exact (hI j event' hevent').insert hins (by rw [hreceived]; rfl)
  | @read i deleted eventId ha hcall hw' =>
      subst hw'
      by_cases hij : j = i
      · subst hij
        rw [World.setCall_self] at hevent'
        exact abreast_of_read hevent' _
      · rw [World.setCall_other _ _ hij] at hevent'
        exact (hI j event' hevent').frame (World.reads_since_other w hij) rfl
  | @moved i s _ _ _ hstays _ hw' =>
      subst hw'
      by_cases hij : j = i
      · subst hij
        rw [World.setCall_self] at hevent'
        rcases hstays with hstays | hnone
        · exact (hI j event' (hstays ▸ hevent')).frame rfl rfl
        · rw [hnone] at hevent'
          cases hevent'
      · rw [World.setCall_other _ _ hij] at hevent'
        exact (hI j event' hevent').frame rfl rfl
  | @wrote i now event status next s events ha hwrite htrans hstays _ _ hw' =>
      subst hw'
      have hread := event?_of_write? hwrite
      have hmine : Abreast w j event'.id := by
        by_cases hij : j = i
        · subst hij
          rw [World.setCall_self] at hevent'
          rcases hstays with hstays | ⟨hnone, _⟩
          · rw [hstays] at hevent'
            cases hevent'
            exact hI _ _ hread
          · rw [hnone] at hevent'
            cases hevent'
        · rw [World.setCall_other _ _ hij] at hevent'
          exact hI j event' hevent'
      refine (hmine.write (statusOf?_transition htrans) ?_).frame rfl rfl
      intro old hold hfin
      obtain ⟨x, hx, hid, rfl⟩ := (hI i event hread).fresh old hold hfin
      exact hn i event status next ha hwrite x hx hid hfin

/-- Along every run, a status that is `PROCESSED` or `IGNORED` stays what it is
exactly as long as no status write is overtaken. -/
theorem along_keepsFinished_iff (as : List Action) :
    machine.Along KeepsFinished World.init as ↔ machine.Along NotOvertaken World.init as :=
  Machine.along_iff_guarded (M := machine) (I := AllAbreast)
    (fun _ _ _ hI h => keepsFinished_iff hI h) (fun _ _ _ hI h hn => allAbreast_of_step hI h hn) allAbreast_init

/-! ## An overtaken run -/

/-- An event as it is journaled. -/
def exampleEvent : ProviderEvent where
  id := "e1"
  workspaceId := "w"
  providerAccountId := "a"
  provider := "whatsapp-cloud"
  channelType := .whatsapp
  providerEventKey := "k1"
  isFingerprinted := false
  payload := []
  retentionDays := 30
  purgeAfter := 0
  correlationId := none

/-- Two runs read the event; the second processes it before the first one writes. -/
def overtakenRun : List Action :=
  [.journal exampleEvent, .start 1 "e1", .start 2 "e1", .read 1 false, .read 2 false,
    .write 2 0, .answer 2 (.normalized []), .answer 2 .resolves, .write 2 0]

/-- The run that was overtaken makes a `PROCESSED` event `PROCESSING`. -/
theorem not_keepsFinished :
    ¬ ∀ as : List Action, machine.Along KeepsFinished World.init as := by
  intro hall
  have hview : ((machine.run World.init overtakenRun).bind fun w =>
      (machine.step w (.write 1 1)).map fun w' => (statusOf? w.events "e1", statusOf? w'.events "e1"))
      = some (some .processed, some .processing) := by decide
  obtain ⟨w, w', hrun, hstep, heq⟩ := Machine.exists_last hview
  obtain ⟨hbefore, hafter⟩ := Prod.mk.inj heq
  have hkeeps := (hall (overtakenRun ++ [.write 1 1])).last hrun hstep
  rw [hkeeps "e1" .processed hbefore rfl] at hafter
  cases hafter

end Vynor.Inbound.Runs
