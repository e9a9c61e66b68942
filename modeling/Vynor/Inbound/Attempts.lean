import Vynor.Inbound.Bookkeeping

/-!
# Attempts

The run of an active job works on the event the job names (`Bound`).  A job is
spent when nothing of it is left to run.

Left alone, an attempt that returns has put its event to rest.  Two things can
stand against that: the last attempt fails while the event still is `RECEIVED`
or `PROCESSING`, and somebody makes the event `RECEIVED` or `PROCESSING` again
behind a spent job.  `Careful` excludes them, and then every event of a spent
job is at rest.
-/

namespace Vynor.Inbound.Handover

open Lib (Table)
open Journal (ProviderEvent ProviderEventStatus names)
open Outbox (OutboxEvent HoldsJob workPending)
open Queue (Job outboxJobKey)

/-- The run of an active job works on the event that the job names. -/
def Bound (w : World) : Prop :=
  ∀ key job i, Held w key job → (w.job key).state = .active i →
    w.runs.call i ≠ .idle ∧ ∀ id, (w.runs.call i).eventId? = some id →
      job.envelope.payload.get? "providerEventId" = some id

theorem bound_init : Bound World.init := by
  intro key job i hheld
  cases hheld.1

/-- A job the queue holds after a step of the outbox was held before, or waits. -/
theorem held_of_dispatch {w : World} {a : Outbox.Action} {outbox : Outbox.World}
    (h : Outbox.step w.outbox a = some outbox) {key : String} {job : Job}
    (hheld : Held { w with outbox := outbox, job := counted w a } key job) :
    Held w key job ∧ counted w a key = w.job key ∨ (counted w a key).state = .waiting := by
  obtain ⟨hmem, hqueue, hkey⟩ := hheld
  have hmem : job ∈ outbox.accepted := hmem
  cases Outbox.jobStep_of_step h with
  | same ha _ hacc | handed ha _ _ hacc =>
      rw [hacc] at hmem
      exact Or.inl ⟨⟨hmem, hqueue, hkey⟩, by rw [counted, ha]⟩
  | @accepted new ha _ _ hacc =>
      rw [hacc] at hmem
      simp only [counted, ha]
      rcases Outbox.mem_enqueue hmem with hold | ⟨rfl, hfree⟩
      · refine Or.inl ⟨⟨hold, hqueue, hkey⟩, ?_⟩
        split
        next hnew =>
          have hne : key ≠ new.key := by
            rintro rfl
            exact hnew.2 ⟨job, hold, hqueue.trans hnew.1.symm, hkey⟩
          exact Function.update_of_ne hne _ _
        · rfl
      · rw [if_pos ⟨hqueue, hfree⟩, ← hkey, Function.update_self]
        exact Or.inr rfl

theorem handle_ne_idle (job : Job) : handle job ≠ .idle := by
  unfold handle
  split <;> simp

/-- The event a run of a job starts with is the one the job names. -/
theorem eventId?_handle {job : Job} {id : Id} (h : (handle job).eventId? = some id) :
    job.envelope.payload.get? "providerEventId" = some id := by
  unfold handle at h
  split at h
  next providerEventId htruthy =>
    cases h
    exact (Option.filter_eq_some_iff.mp htruthy).1
  · cases h

/-- A job that is settled is not active. -/
theorem JobRun.settled_ne_active {run run' : JobRun} {stage : Stage}
    (h : run.settled stage = some run') (i : CallId) : run'.state ≠ .active i := by
  unfold JobRun.settled at h
  split at h
  · cases h
    simp
  · cases h
    show (if run.lastAttempt then JobState.failed else .waiting) ≠ _
    split <;> simp
  · cases h

theorem JobRun.stalled_ne_active (run : JobRun) (i : CallId) : run.stalled.state ≠ .active i := by
  show (if run.lastStall then JobState.failed else .waiting) ≠ _
  split <;> simp

/-! ## Runs that return -/

/-- The event is neither `RECEIVED` nor `PROCESSING`. -/
def AtRest (t : ProviderEvents) (id : Id) : Prop :=
  ∀ status, statusOf? t id = some status → workPending status = false

theorem not_workPending_of_finished {status : ProviderEventStatus} (h : finished status = true) :
    workPending status = false := by
  cases status with
  | processed | ignored => rfl
  | _ => cases h

/-- A run that returns has put its event to rest. -/
theorem atRest_of_returned {w w' : Runs.World} {a : Runs.Action} (h : Runs.step w a = some w')
    {k : CallId} (hr : w'.call k = .returned) :
    w.call k = .returned ∨ ∃ id, (w.call k).eventId? = some id ∧ AtRest w'.events id := by
  cases Runs.effect_of_step h with
  | journaled _ _ _ hw' =>
      subst hw'
      exact Or.inl hr
  | @read i deleted eventId _ hcall hw' =>
      subst hw'
      by_cases hki : k = i
      · subst hki
        refine Or.inr ⟨eventId, by rw [hcall]; rfl, fun status hstatus => ?_⟩
        rw [Runs.World.setCall_self] at hr
        obtain ⟨e, hfind, rfl⟩ := Option.map_eq_some_iff.mp hstatus
        rcases afterRead_cases deleted (w.events.find? (.id eventId)) with
          ⟨_, hfin⟩ | ⟨_, _, _, hgoes | hgoes⟩
        · exact not_workPending_of_finished (hfin e hfind)
        · rw [hgoes] at hr
          cases hr
        · rw [hgoes] at hr
          cases hr
      · rw [Runs.World.setCall_other _ _ hki] at hr
        exact Or.inl hr
  | @wrote i _ event status next s events _ hwrite htrans _ _ hreturns hw' =>
      subst hw'
      by_cases hki : k = i
      · subst hki
        rw [Runs.World.setCall_self] at hr
        rw [hreturns hr] at hwrite
        refine Or.inr ⟨event.id, eventId?_of_event? (event?_of_write? hwrite), fun st hst => ?_⟩
        rw [Runs.World.setCall_events, Runs.World.write_events, statusOf?_transition htrans,
          if_pos rfl] at hst
        cases hst
        obtain ⟨hne, hne'⟩ := status_of_write?_returned hwrite
        cases status with
        | received => exact absurd rfl hne
        | processing => exact absurd rfl hne'
        | _ => rfl
      · rw [Runs.World.setCall_other _ _ hki] at hr
        exact Or.inl hr
  | @moved i s _ hne _ _ _ hw' =>
      subst hw'
      by_cases hki : k = i
      · subst hki
        rw [Runs.World.setCall_self] at hr
        exact absurd hr hne
      · rw [Runs.World.setCall_other _ _ hki] at hr
        exact Or.inl hr

/-! ## Spent jobs -/

/-- Nothing of the job is left to run, unless it stalls. -/
def Spent (w : World) (key : String) : Prop :=
  match (w.job key).state with
  | .waiting => False
  | .active i => w.runs.call i = .returned
  | .completed => True
  | .failed => True

theorem spent_setJob_other (w : World) {key key' : String} (run : JobRun) (h : key' ≠ key) :
    Spent (w.setJob key run) key' ↔ Spent w key' := by
  unfold Spent
  rw [World.setJob_other w run h]
  exact Iff.rfl

/-- The job that an action makes fail for good. -/
def givesUp? (w : World) : Action → Option Job
  | .settle job =>
      match (w.job job.key).state with
      | .active i =>
          if w.runs.call i = .threw ∧ (w.job job.key).lastAttempt = true then some job else none
      | _ => none
  | .stall job => if (w.job job.key).lastStall then some job else none
  | _ => none

/-- The event that an action makes `RECEIVED` or `PROCESSING`. -/
def reopens? (w : World) : Action → Option Id
  | .replay eventId _ => some eventId
  | .process a =>
      (w.runs.written? a).bind fun x => if workPending x.status then some x.eventId else none
  | _ => none

/-- No job fails for good before its event is at rest, and no event is made
`RECEIVED` or `PROCESSING` behind a spent job that the queue holds. -/
structure Careful (w : World) (a : Action) (_ : World) : Prop where
  gives_up : ∀ job, givesUp? w a = some job → ∀ id, ∀ o ∈ w.outbox.events.rows,
    names id o = true → job.key = outboxJobKey o.id → AtRest w.runs.events id
  reopens : ∀ id, reopens? w a = some id → ∀ o ∈ w.outbox.events.rows, names id o = true →
    ∀ job, Held w (outboxJobKey o.id) job → ¬ Spent w (outboxJobKey o.id)

/-- The events of spent jobs are at rest. -/
def SpentAtRest (w : World) : Prop :=
  ∀ id, ∀ o ∈ w.outbox.events.rows, names id o = true → ∀ job, Held w (outboxJobKey o.id) job →
    Spent w (outboxJobKey o.id) → AtRest w.runs.events id

theorem spentAtRest_init : SpentAtRest World.init := by
  intro id o ho
  cases ho

/-- The job under the key of a row names the event that the row names. -/
theorem payload_of_held {w : World} (hc : Outbox.Copies w.outbox) {o : OutboxEvent}
    (ho : o ∈ w.outbox.events.rows) {id : Id} (hnames : names id o = true) {job : Job}
    (hheld : Held w (outboxJobKey o.id) job) :
    job.envelope.payload.get? "providerEventId" = some id := by
  obtain ⟨row, hrow, hcarries⟩ := hc.accepted job hheld.1
  have hid : row.id = o.id := Queue.outboxJobKey_injective (hcarries.key.symm.trans hheld.2.2)
  have heq : row = o := OutboxEvent.eq_of_id hrow ho hid
  rw [hcarries.payload, heq, payload_of_names hnames]

section Step

variable {w w' : World} {a : Action}

/-- Every step keeps the runs at the events of their jobs. -/
theorem bound_of_step (hc : Outbox.Copies w.outbox) (hw : Bound w) (h : step w a = some w') :
    Bound w' := by
  intro key job k hheld hactive
  cases a with
  | journal params event id outboxId startedAt now =>
      obtain ⟨_, events, outbox, _, _, rfl⟩ := of_step_journal h
      exact hw key job k hheld hactive
  | dispatch a =>
      obtain ⟨_, outbox, houtbox, rfl⟩ := of_step_dispatch h
      rcases held_of_dispatch houtbox hheld with ⟨hold, hsame⟩ | hwaits
      · exact hw key job k hold (hsame ▸ hactive)
      · rw [hwaits] at hactive
        cases hactive
  | start job₀ i =>
      obtain ⟨hheld₀, _, hidle, rfl⟩ := of_step_start h
      have hheld : Held w key job := hheld
      by_cases hkey : key = job₀.key
      · subst hkey
        have hjob : job = job₀ := hc.onePerKey job hheld.1 job₀ hheld₀.1
          (hheld.2.1.trans hheld₀.2.1.symm) hheld.2.2
        subst hjob
        have hk : k = i := by
          have hactive : ((w.setJob job.key { w.job job.key with state := .active i }).job
            job.key).state = .active k := hactive
          rw [World.setJob_self] at hactive
          cases hactive
          rfl
        subst hk
        show (w.runs.setCall k (handle job)).call k ≠ _ ∧ _
        rw [Runs.World.setCall_self]
        exact ⟨handle_ne_idle job, fun id hid => eventId?_handle hid⟩
      · have hactive : ((w.setJob job₀.key _).job key).state = .active k := hactive
        rw [World.setJob_other w _ hkey] at hactive
        have hbound := hw key job k hheld hactive
        have hki : k ≠ i := by
          rintro rfl
          exact hbound.1 hidle
        show (w.runs.setCall i (handle job₀)).call k ≠ _ ∧ _
        rw [Runs.World.setCall_other w.runs _ hki]
        exact hbound
  | process a =>
      obtain ⟨_, runs, hruns, rfl⟩ := of_step_process h
      have hbound := hw key job k hheld hactive
      obtain ⟨hne, hstays⟩ := Runs.call_of_step hruns k hbound.1
      exact ⟨hne, fun id hid => hbound.2 id (hstays id hid)⟩
  | settle job₀ =>
      obtain ⟨i, run, _, _, hrun, rfl⟩ := of_step_settle h
      by_cases hkey : key = job₀.key
      · subst hkey
        rw [World.setJob_self] at hactive
        exact absurd hactive (JobRun.settled_ne_active hrun k)
      · rw [World.setJob_other w run hkey] at hactive
        exact hw key job k hheld hactive
  | stall job₀ =>
      obtain ⟨i, _, _, rfl⟩ := of_step_stall h
      by_cases hkey : key = job₀.key
      · subst hkey
        rw [World.setJob_self] at hactive
        exact absurd hactive (JobRun.stalled_ne_active _ k)
      · rw [World.setJob_other w _ hkey] at hactive
        exact hw key job k hheld hactive
  | lose job₀ =>
      cases h
      exact hw key job k ⟨List.mem_of_mem_erase hheld.1, hheld.2⟩ hactive
  | replay eventId now =>
      obtain ⟨r, events, _, rfl⟩ := of_step_replay h
      exact hw key job k hheld hactive

/-! ## Events of spent jobs stay at rest -/

/-- A job stays spent, or is spent again, with the same statuses. -/
theorem SpentAtRest.frame (hw : SpentAtRest w) (hruns : w'.runs.events = w.runs.events)
    (hrows : ∀ o' ∈ w'.outbox.events.rows, ∀ id, names id o' = true →
      ∃ o ∈ w.outbox.events.rows, names id o = true ∧ o.id = o'.id)
    (hspent : ∀ key job, Held w' key job → Spent w' key → Held w key job ∧ Spent w key) :
    SpentAtRest w' := by
  intro id o' ho' hnames' job hheld' hs'
  obtain ⟨o, ho, hnames, hid⟩ := hrows o' ho' id hnames'
  obtain ⟨hheld, hs⟩ := hspent _ job hheld' hs'
  rw [hruns]
  rw [← hid] at hheld hs
  exact hw id o ho hnames job hheld hs

theorem spentAtRest_of_journal {params : Journal.JournalProviderEventsParams}
    {event : Journal.JournalEventInput} {id outboxId : Id} {startedAt now : Date}
    (hc : Outbox.Copies w.outbox) (hn : Named w) (hw : SpentAtRest w)
    (h : step w (.journal params event id outboxId startedAt now) = some w') : SpentAtRest w' := by
  obtain ⟨_, events, outbox, hevents, houtbox, rfl⟩ := of_step_journal h
  intro id' o ho hnames job hheld hs
  have hnew : statusOf? w.runs.events id = none := statusOf?_of_insert_new hevents
  have hheld : Held w (outboxJobKey o.id) job := hheld
  have ho : o ∈ outbox.rows := ho
  rw [(Table.insert?_eq_some.mp houtbox).2, List.mem_append, List.mem_singleton] at ho
  rcases ho with hold | rfl
  · have hrest := hw id' o hold hnames job hheld hs
    intro status hstatus
    refine hrest status ?_
    have hstatus : statusOf? events id' = some status := hstatus
    rw [statusOf?_insert hevents, if_neg] at hstatus
    · exact hstatus
    · rintro rfl
      have hknown := hn.known _ o hold hnames
      rw [hnew] at hknown
      cases hknown
  · -- No job can be held for a row that was not there.
    obtain ⟨row, hrow, hcarries⟩ := hc.accepted job hheld.1
    have hid := Queue.outboxJobKey_injective (hcarries.key.symm.trans hheld.2.2)
    have hfree := (Table.insert?_eq_some.mp houtbox).1 row hrow
    exact (hfree List.mem_cons_self (List.mem_singleton.mpr hid)).elim

theorem spentAtRest_of_start {job₀ : Job} {i : CallId} (hc : Outbox.Copies w.outbox) (hn : Named w)
    (hb : Bound w) (hw : SpentAtRest w) (h : step w (.start job₀ i) = some w') : SpentAtRest w' := by
  obtain ⟨hheld₀, _, hidle, rfl⟩ := of_step_start h
  intro id o ho hnames job hheld hs
  have hheld : Held w (outboxJobKey o.id) job := hheld
  by_cases hkey : outboxJobKey o.id = job₀.key
  · -- The new attempt has returned at once, so its job names no event.
    rw [hkey] at hs
    simp only [Spent, World.setJob_self, Runs.World.setCall_self] at hs
    have hjob : job = job₀ := hc.onePerKey job hheld.1 job₀ hheld₀.1
      (hheld.2.1.trans hheld₀.2.1.symm) (hheld.2.2.trans hkey)
    have hpayload := payload_of_held hc ho hnames hheld
    rw [hjob] at hpayload
    have hempty : id = "" := by
      by_contra hne
      simp [handle, hpayload, truthy, Option.filter, hne] at hs
    intro status hstatus
    have hstatus : statusOf? w.runs.events id = some status := hstatus
    rw [hempty, hn.nonempty] at hstatus
    cases hstatus
  · refine hw id o ho hnames job hheld ?_
    simp only [Spent, World.setJob_other w _ hkey] at hs
    unfold Spent
    cases hstate : (w.job (outboxJobKey o.id)).state with
    | active k =>
        rw [hstate] at hs
        have hki : k ≠ i := by
          rintro rfl
          exact (hb _ job _ hheld hstate).1 hidle
        have hs : (w.runs.setCall i (handle job₀)).call k = .returned := hs
        rw [Runs.World.setCall_other _ _ hki] at hs
        exact hs
    | waiting =>
        rw [hstate] at hs
        exact hs
    | completed => trivial
    | failed => trivial

theorem spentAtRest_of_process {a : Runs.Action} (hc : Outbox.Copies w.outbox) (hb : Bound w)
    (hw : SpentAtRest w) (h : step w (.process a) = some w') (hcareful : Careful w (.process a) w') :
    SpentAtRest w' := by
  obtain ⟨hinner, runs, hruns, rfl⟩ := of_step_process h
  intro id o ho hnames job hheld hs
  have hheld : Held w (outboxJobKey o.id) job := hheld
  by_cases hwas : Spent w (outboxJobKey o.id)
  · have hrest := hw id o ho hnames job hheld hwas
    intro status hstatus
    rcases Runs.statusOf?_of_step hruns (inner_isJournal hinner) id with
      hsame | ⟨x, hx, hid, hwritten⟩
    · exact hrest status (hsame ▸ hstatus)
    · have hstatus : statusOf? runs.events id = some status := hstatus
      rw [hwritten] at hstatus
      cases hstatus
      by_contra hpending
      have hreopens : reopens? w (.process a) = some id := by
        simp [reopens?, hx, hid, hpending]
      exact hcareful.reopens id hreopens o ho hnames job hheld hwas
  · -- The job is spent by this step: its attempt has just returned.
    have hpayload := payload_of_held hc ho hnames hheld
    cases hstate : (w.job (outboxJobKey o.id)).state with
    | active k =>
        have hreturned : runs.call k = .returned := by simpa [Spent, hstate] using hs
        rcases atRest_of_returned hruns hreturned with hbefore | ⟨id', hid', hrest⟩
        · exact absurd (by simpa [Spent, hstate] using hbefore) hwas
        · rw [(hb _ job k hheld hstate).2 id' hid'] at hpayload
          cases hpayload
          exact hrest
    | waiting => simp [Spent, hstate] at hs
    | completed => exact absurd (by simp [Spent, hstate]) hwas
    | failed => exact absurd (by simp [Spent, hstate]) hwas

theorem spentAtRest_of_settle {job₀ : Job} (hw : SpentAtRest w)
    (h : step w (.settle job₀) = some w') (hcareful : Careful w (.settle job₀) w') :
    SpentAtRest w' := by
  obtain ⟨i, run, hactive, _, hrun, rfl⟩ := of_step_settle h
  intro id o ho hnames job hheld hs
  by_cases hkey : outboxJobKey o.id = job₀.key
  · cases hcall : w.runs.call i with
    | returned =>
        have hwas : Spent w (outboxJobKey o.id) := by
          simp [Spent, hkey, hactive, hcall]
        exact hw id o ho hnames job hheld hwas
    | threw =>
        rw [hcall] at hrun
        cases hlast : (w.job job₀.key).lastAttempt with
        | true =>
            have hgives : givesUp? w (.settle job₀) = some job₀ := by
              simp [givesUp?, hactive, hcall, hlast]
            exact hcareful.gives_up job₀ hgives id o ho hnames hkey.symm
        | false =>
            simp only [JobRun.settled, hlast, Option.some.injEq] at hrun
            subst hrun
            simp [Spent, hkey] at hs
    | _ =>
        rw [hcall] at hrun
        cases hrun
  · exact hw id o ho hnames job hheld ((spent_setJob_other w run hkey).mp hs)

theorem spentAtRest_of_stall {job₀ : Job} (hw : SpentAtRest w)
    (h : step w (.stall job₀) = some w') (hcareful : Careful w (.stall job₀) w') :
    SpentAtRest w' := by
  obtain ⟨i, _, _, rfl⟩ := of_step_stall h
  intro id o ho hnames job hheld hs
  by_cases hkey : outboxJobKey o.id = job₀.key
  · cases hlast : (w.job job₀.key).lastStall with
    | true =>
        exact hcareful.gives_up job₀ (by simp [givesUp?, hlast]) id o ho hnames hkey.symm
    | false => simp [Spent, hkey, JobRun.stalled, hlast] at hs
  · exact hw id o ho hnames job hheld ((spent_setJob_other w _ hkey).mp hs)

/-- A careful step keeps the events of spent jobs at rest. -/
theorem spentAtRest_of_step (hc : Outbox.Copies w.outbox) (hn : Named w) (hb : Bound w)
    (hw : SpentAtRest w) (h : step w a = some w') (hcareful : Careful w a w') : SpentAtRest w' := by
  cases a with
  | journal params event id outboxId startedAt now => exact spentAtRest_of_journal hc hn hw h
  | dispatch a =>
      obtain ⟨hforeign, outbox, houtbox, rfl⟩ := of_step_dispatch h
      refine hw.frame rfl (fun o' ho' id hnames => naming_of_step houtbox hforeign ho' hnames) ?_
      intro key job hheld hs
      rcases held_of_dispatch houtbox hheld with ⟨hold, hsame⟩ | hwaits
      · refine ⟨hold, ?_⟩
        simpa only [Spent, hsame] using hs
      · simp only [Spent, hwaits] at hs
  | start job i => exact spentAtRest_of_start hc hn hb hw h
  | process a => exact spentAtRest_of_process hc hb hw h hcareful
  | settle job => exact spentAtRest_of_settle hw h hcareful
  | stall job => exact spentAtRest_of_stall hw h hcareful
  | lose job =>
      cases h
      refine hw.frame rfl (fun o' ho' id hnames => ⟨o', ho', hnames, rfl⟩) ?_
      intro key job hheld hs
      exact ⟨⟨List.mem_of_mem_erase hheld.1, hheld.2⟩, hs⟩
  | replay eventId now =>
      obtain ⟨r, events, hreplay, rfl⟩ := of_step_replay h
      intro id o ho hnames job hheld hs status hstatus
      have hstatus : statusOf? events id = some status := hstatus
      rw [statusOf?_replay hreplay] at hstatus
      by_cases heq : id = eventId
      · exact absurd hs (hcareful.reopens id (by rw [heq]; rfl) o ho hnames job hheld)
      · rw [if_neg heq] at hstatus
        exact hw id o ho hnames job hheld hs status hstatus

end Step

end Vynor.Inbound.Handover
