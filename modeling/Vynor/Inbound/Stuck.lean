import Vynor.Inbound.Attempts

/-!
# Stuck provider events

A provider event that is `RECEIVED` or `PROCESSING` is meant to be visible
somewhere: its outbox row is not handed over yet or is a dead letter, the queue
still runs its job, or a check reports it as lost.

A job that the queue keeps after its end hides its event from all of these.
`process` writes `RECEIVED` also when its last attempt fails, and a replay
enqueues nothing.  Along careful runs that does not happen, and what remains is
the limit of the query.
-/

namespace Vynor.Inbound.Handover

open Lib (Table Machine)
open Journal (names)
open Outbox (OutboxEvent workPending findLostJobs lostJob Candidates candidate CANDIDATE_LIMIT)
open Queue (outboxJobKey)

/-- The row itself, its job or a check accounts for the event. -/
inductive Accounted (w : World) (messages : Messages) (now : Date) (o : OutboxEvent) : Prop where
  | pending : o.status = .pending → Accounted w messages now o
  | processing : o.status = .processing → Accounted w messages now o
  | deadLetter : o.status = .deadLetter → Accounted w messages now o
  | live {job : Queue.Job} : Held w (outboxJobKey o.id) job →
      (w.job (outboxJobKey o.id)).live = true → Accounted w messages now o
  | lost : (∀ candidates lost, Candidates w.outbox.events messages w.runs.events now candidates →
      findLostJobs true w.outbox.accepted candidates = some lost → lostJob o ∈ lost) →
      Accounted w messages now o

/-- Every event that is still to be processed has one row.  If that was not
dispatched yet, or was dispatched in the window of a check, the event is
accounted for. -/
def NoneStuck (w : World) (messages : Messages) (now : Date) : Prop :=
  ∀ e ∈ w.runs.events.rows, workPending e.status = true →
    ∃ o ∈ w.outbox.events.rows, (∀ o' ∈ w.outbox.events.rows, names e.id o' = true ↔ o' = o) ∧
      (o.dispatchedAt = none ∨ o.inWindow now = true → Accounted w messages now o)

/-! ## Careful runs -/

/-- What careful steps keep. -/
structure Tracked (w : World) : Prop where
  copies : Outbox.Copies w.outbox
  named : Named w
  bound : Bound w
  spent : SpentAtRest w

theorem tracked_init : Tracked World.init :=
  ⟨Outbox.copies_init, named_init, bound_init, spentAtRest_init⟩

theorem tracked_of_step {w w' : World} {a : Action} (hw : Tracked w) (h : step w a = some w')
    (hcareful : Careful w a w') : Tracked w' where
  copies := copies_of_step hw.copies h
  named := named_of_step hw.named h
  bound := bound_of_step hw.copies hw.bound h
  spent := spentAtRest_of_step hw.copies hw.named hw.bound hw.spent h hcareful

/-- An event in the table has its status there. -/
theorem statusOf?_of_mem {t : ProviderEvents} {e : Journal.ProviderEvent} (he : e ∈ t.rows) :
    statusOf? t e.id = some e.status :=
  statusOf?_of_find? (Table.find?_eq_some.mpr ⟨he, Journal.ProviderEvent.id_mem_keys.mpr rfl⟩)

/-- The job of an event that is still to be processed is not spent, so the queue
runs it. -/
theorem live_of_held {w : World} (hw : Tracked w) {e : Journal.ProviderEvent}
    (he : e ∈ w.runs.events.rows) (hpending : workPending e.status = true) {o : OutboxEvent}
    (ho : o ∈ w.outbox.events.rows) (hnames : names e.id o = true) {job : Queue.Job}
    (hheld : Held w (outboxJobKey o.id) job) : (w.job (outboxJobKey o.id)).live = true := by
  by_contra hdead
  have hspent : Spent w (outboxJobKey o.id) := by
    unfold Spent
    unfold JobRun.live at hdead
    cases hstate : (w.job (outboxJobKey o.id)).state <;> simp_all
  have hrest := hw.spent e.id o ho hnames job hheld hspent e.status (statusOf?_of_mem he)
  rw [hpending] at hrest
  cases hrest

/-- A completed row in the window whose job is gone is reported. -/
theorem lost_of_gone {w : World} {messages : Messages} {now : Date} {e : Journal.ProviderEvent}
    (he : e ∈ w.runs.events.rows) (hpending : workPending e.status = true) {o : OutboxEvent}
    (ho : o ∈ w.outbox.events.rows) (hnames : names e.id o = true) (hstatus : o.status = .completed)
    (hwindow : o.inWindow now = true)
    (hgone : ¬ Outbox.HoldsJob w.outbox.accepted .webhooksProcess (outboxJobKey o.id))
    (hfew : w.outbox.events.count (candidate messages w.runs.events now) ≤ CANDIDATE_LIMIT)
    {candidates : List OutboxEvent} {lost : List Outbox.LostOutboxJob}
    (hcandidates : Candidates w.outbox.events messages w.runs.events now candidates)
    (hlost : findLostJobs true w.outbox.accepted candidates = some lost) : lostJob o ∈ lost := by
  refine Outbox.mem_findLostJobs hcandidates hfew hlost ho hstatus hwindow
    (eventType_of_names hnames) ?_ hgone
  exact List.any_eq_true.mpr ⟨e, he, by simp [payload_of_names hnames, hpending]⟩

/-- After a run of careful steps no event is stuck, as long as the query of the
check reaches its limit in no row. -/
theorem noneStuck_of_careful {as : List Action} {w : World}
    (hrun : machine.run World.init as = some w) (hcareful : machine.Along Careful World.init as)
    (messages : Messages) {now : Date}
    (hfew : w.outbox.events.count (candidate messages w.runs.events now) ≤ CANDIDATE_LIMIT) :
    NoneStuck w messages now := by
  have hw : Tracked w := Machine.invariant_along (M := machine) (I := Tracked)
    (fun _ _ _ hI h hP => tracked_of_step hI h hP) tracked_init hcareful hrun
  intro e he hpending
  obtain ⟨o, ho, hnames⟩ := hw.named.exists_row e.id (by rw [statusOf?_of_mem he]; rfl)
  refine ⟨o, ho, fun o' ho' => ⟨fun hnames' => ?_, fun heq => heq ▸ hnames⟩, fun hdispatched => ?_⟩
  · exact hw.named.unique e.id o' ho' o ho hnames' hnames
  · have hsound := hw.copies.sound o ho
    cases hstatus : o.status with
    | pending => exact .pending hstatus
    | processing => exact .processing hstatus
    | deadLetter => exact .deadLetter hstatus
    | failed => exact absurd hstatus hsound.not_failed
    | completed =>
        have hwindow : o.inWindow now = true := by
          refine hdispatched.resolve_left fun hnone => ?_
          have hsome := hsound.dispatched hstatus
          rw [hnone] at hsome
          cases hsome
        by_cases hheld : Outbox.HoldsJob w.outbox.accepted .webhooksProcess (outboxJobKey o.id)
        · obtain ⟨job, hmem, hqueue, hkey⟩ := hheld
          have hheld : Held w (outboxJobKey o.id) job := ⟨hmem, hqueue, hkey⟩
          exact .live hheld (live_of_held hw he hpending ho hnames hheld)
        · exact .lost fun _ _ hcandidates hlost =>
            lost_of_gone he hpending ho hnames hstatus hwindow hheld hfew hcandidates hlost

/-! ## Two runs -/

/-- A delivery to a channel. -/
def exampleParams : Journal.JournalProviderEventsParams where
  workspaceId := "workspace"
  providerAccountId := "channel"
  provider := "telegram_bot"
  channelType := .telegram
  events := [⟨"k1", false, [], none⟩]
  correlationId := "delivery"

/-- The job of the event, as the worker hands it over. -/
def exampleJob : Queue.Job := Outbox.jobFor (Journal.receivedEvent exampleParams "e1" "o1" 0) 0

/-- An event is journaled and handed over. -/
def handedOver : List Action :=
  [.journal exampleParams ⟨"k1", false, [], none⟩ "e1" "o1" 0 0,
    .dispatch (.poll "w"), .dispatch (.claim "w" 0 [] ["o1"]), .dispatch (.enter "w" true 0),
    .dispatch (.accept exampleJob), .dispatch (.sendResolves "w"), .dispatch (.complete "w" 0 0)]

/-- An attempt that fails with an error worth retrying. -/
def failingAttempt (i : CallId) : List Action :=
  [.start exampleJob i, .process (.read i false), .process (.write i 0),
    .process (.answer i (.throws (.other "timeout"))), .process (.write i 0), .settle exampleJob]

/-- Actions that are careful wherever they happen. -/
def harmless : Action → Bool
  | .journal _ _ _ _ _ _ => true
  | .dispatch _ => true
  | .start _ _ => true
  | .lose _ => true
  | _ => false

theorem careful_of_harmless {w w' : World} {a : Action} (h : harmless a = true) :
    Careful w a w' := by
  have hnone : givesUp? w a = none ∧ reopens? w a = none := by
    cases a with
    | journal | dispatch | start | lose => exact ⟨rfl, rfl⟩
    | _ => cases h
  constructor
  · intro job hgives
    rw [hnone.1] at hgives
    cases hgives
  · intro id hreopens
    rw [hnone.2] at hreopens
    cases hreopens

/-- A job that Redis lost is reported eleven minutes later. -/
theorem noneStuck_lostJob :
    ∃ w, machine.run World.init (handedOver ++ [.lose exampleJob]) = some w ∧
      NoneStuck w .empty (11 * 60000) ∧
      w.runs.events.rows.map Journal.ProviderEvent.status = [.received] ∧ w.outbox.accepted = [] := by
  have hview : (machine.run World.init (handedOver ++ [.lose exampleJob])).map (fun w =>
      (w.outbox.events.count (candidate .empty w.runs.events (11 * 60000)),
        w.runs.events.rows.map Journal.ProviderEvent.status, w.outbox.accepted))
      = some (1, [.received], []) := by decide +kernel
  obtain ⟨w, hrun, heq⟩ := Option.map_eq_some_iff.mp hview
  obtain ⟨hcount, hrest⟩ := Prod.mk.inj heq
  obtain ⟨hstatus, haccepted⟩ := Prod.mk.inj hrest
  have hharmless : ∀ a ∈ handedOver ++ [.lose exampleJob], harmless a = true := by decide
  refine ⟨w, hrun, noneStuck_of_careful hrun ?_ .empty ?_, hstatus, haccepted⟩
  · exact Machine.along_of_forall (fun a ha _ _ _ => careful_of_harmless (hharmless a ha)) _
  · rw [hcount]
    decide

/-- Six attempts in a row fail. -/
def exhausted : List Action :=
  handedOver ++ (List.range 6).flatMap failingAttempt

/-- The event is `RECEIVED`, its row is `COMPLETED`, its job is kept as failed, and
no check reports it. -/
theorem not_noneStuck :
    ¬ ∀ (as : List Action) (w : World), machine.run World.init as = some w →
      ∀ messages now, NoneStuck w messages now := by
  intro hall
  have hview : (machine.run World.init exhausted).map (fun w =>
      (w.runs.events.rows.map (fun e => (e.id, e.status)),
        w.outbox.events.rows.map (fun o => (o.id, o.status, o.dispatchedAt))))
      = some ([("e1", .received)], [("o1", .completed, some 0)]) := by decide +kernel
  have hcheck : (machine.run World.init exhausted).all (fun w =>
      Candidates w.outbox.events .empty w.runs.events (11 * 60000) w.outbox.events.rows ∧
        findLostJobs true w.outbox.accepted w.outbox.events.rows = some [] ∧
        (w.job (outboxJobKey "o1")).state = .failed) = true := by
    decide +kernel
  obtain ⟨w, hrun, heq⟩ := Option.map_eq_some_iff.mp hview
  simp only [Prod.mk.injEq] at heq
  obtain ⟨hevents, hrows⟩ := heq
  rw [hrun, Option.all_some, decide_eq_true_eq] at hcheck
  obtain ⟨hcandidates, hlost, hjob⟩ := hcheck
  obtain ⟨e, he, hid⟩ := List.mem_map.mp
    (show ("e1", .received) ∈ w.runs.events.rows.map (fun e => (e.id, e.status)) by simp [hevents])
  obtain ⟨_, hreceived⟩ := Prod.mk.inj hid
  obtain ⟨o, ho, _, haccounted⟩ :=
    hall exhausted w hrun .empty (11 * 60000) e he (by rw [hreceived]; rfl)
  have hview : (o.id, o.status, o.dispatchedAt) = ("o1", .completed, some 0) := by
    have hmem := List.mem_map_of_mem (f := fun o : OutboxEvent => (o.id, o.status, o.dispatchedAt)) ho
    rw [hrows] at hmem
    exact List.mem_singleton.mp hmem
  simp only [Prod.mk.injEq] at hview
  obtain ⟨hoid, hcompleted, hdispatched⟩ := hview
  have hwindow : o.inWindow (11 * 60000) = true := by
    rw [OutboxEvent.inWindow, hdispatched]
    decide
  cases haccounted (Or.inr hwindow) with
  | pending h => rw [hcompleted] at h; cases h
  | processing h => rw [hcompleted] at h; cases h
  | deadLetter h => rw [hcompleted] at h; cases h
  | live _ hlive =>
      rw [hoid, JobRun.live, hjob] at hlive
      cases hlive
  | lost h => exact List.not_mem_nil (h _ _ hcandidates hlost)

end Vynor.Inbound.Handover
