import Vynor.Lib.Slots
import Vynor.Polling.Scheduler

/-!
# Polls keep their distance

The worker keeps a time and a number for each channel, and a set of ids.  In every
run they agree with the history.  Polls of one channel never overlap, and no more
than ten run at once.  Between two polls of a channel there are at least the
interval, or the wait that the failures since the last success ask for.  A tick
starts every channel that is due, unless all slots are taken
(`scheduled_of_run`).
-/

namespace Vynor.Polling.Scheduler

open Lib (Machine Slots.Fits)

variable {env : WorkerEnv} {w w' : Worker} {now : Date} {q : Poll}

/-- What a worker guarantees. -/
structure WorkerEnv.Scheduled (env : WorkerEnv) (w : Worker) : Prop where
  fits : Slots.Fits MAX_PARALLEL_POLLS (w.polls.map fun q => q.channel.id)
  due : ∀ q ∈ w.polls, q.stage ≠ .reporting →
    env.IsDueAfter (pollsOf q.channel.id w.ended) q.startedAt
  spaced : env.Spaced w.ended

/-- A tick leaves no channel waiting that is due, unless all slots are taken. -/
def WorkerEnv.Fills (env : WorkerEnv) (w : Worker) (a : Action) (w' : Worker) : Prop :=
  ∀ now ∈ w.ticks a, ∀ channel ∈ w'.channels,
    env.IsDueAfter (pollsOf channel.id w'.ended) now →
      channel.id ∈ w'.polls.map (fun q => q.channel.id) ∨ w'.polls.length = MAX_PARALLEL_POLLS

/-! ## The invariant -/

/-- The schedule that a poll holds. -/
def Stage.schedule? : Stage → Option Schedule
  | .polling schedule => some schedule
  | .saving schedule _ => some schedule
  | .recording schedule _ => some schedule
  | .releasing schedule _ => some schedule
  | _ => none

/-- What the worker keeps is what the history gives. -/
structure Orderly (env : WorkerEnv) (w : Worker) : Prop where
  channels : (w.channels.map Polled.id).Nodup
  inFlight : w.inFlight = w.polls.map fun q => q.channel.id
  fits : Slots.Fits MAX_PARALLEL_POLLS w.inFlight
  ids : (w.polls.map Poll.id).Nodup
  fresh : ∀ q ∈ w.polls, q.id < w.nextPoll
  schedules : ∀ id, w.schedules id = env.scheduleAfter (pollsOf id w.ended)
  held : ∀ q ∈ w.polls, ∀ schedule ∈ q.stage.schedule?, schedule = w.scheduleOf q.channel
  due : ∀ q ∈ w.polls, q.stage ≠ .reporting →
    env.IsDueAfter (pollsOf q.channel.id w.ended) q.startedAt
  spaced : env.Spaced w.ended

theorem orderly_init : Orderly env {} where
  channels := List.nodup_nil
  inFlight := rfl
  fits := ⟨List.nodup_nil, Nat.zero_le _⟩
  ids := List.nodup_nil
  fresh _ hq := by cases hq
  schedules _ := rfl
  held _ hq := by cases hq
  due _ hq := by cases hq
  spaced := trivial

theorem Orderly.scheduled (h : Orderly env w) : env.Scheduled w :=
  ⟨h.inFlight ▸ h.fits, h.due, h.spaced⟩

/-- A channel is due where its history says so. -/
theorem Orderly.isDue_iff (h : Orderly env w) {channel : Polled} :
    w.isDue now channel = true ↔ env.IsDueAfter (pollsOf channel.id w.ended) now := by
  rw [Worker.isDue, WorkerEnv.IsDueAfter, h.schedules channel.id]
  cases env.scheduleAfter (pollsOf channel.id w.ended) with
  | none => simp
  | some schedule => simp

/-- Polls under way have channels of their own. -/
theorem Orderly.eq_of_channel (h : Orderly env w) {r : Poll} (hq : q ∈ w.polls) (hr : r ∈ w.polls)
    (hsame : r.channel.id = q.channel.id) : r = q := by
  have hnodup := h.fits.distinct
  rw [h.inFlight] at hnodup
  exact List.inj_on_of_nodup_map hnodup hr hq hsame

theorem Orderly.eq_of_id (h : Orderly env w) {r : Poll} (hq : q ∈ w.polls) (hr : r ∈ w.polls)
    (hsame : r.id = q.id) : r = q :=
  List.inj_on_of_nodup_map h.ids hr hq hsame

/-! ## Starting polls -/

theorem inFlight_startPoll (now : Date) {channel : Polled} (hfree : channel.id ∉ w.inFlight) :
    (Worker.startPoll now w channel).inFlight = w.inFlight ++ [channel.id] :=
  if_neg hfree

theorem orderly_startPoll (h : Orderly env w) {channel : Polled} (hfree : channel.id ∉ w.inFlight)
    (hroom : w.inFlight.length < MAX_PARALLEL_POLLS)
    (hdue : env.IsDueAfter (pollsOf channel.id w.ended) now) :
    Orderly env (Worker.startPoll now w channel) where
  channels := h.channels
  inFlight := by
    rw [inFlight_startPoll now hfree, h.inFlight]
    rw [Worker.startPoll, List.map_append]
    rfl
  fits := by
    rw [inFlight_startPoll now hfree]
    refine ⟨List.nodup_append'.mpr ⟨h.fits.distinct, List.nodup_singleton _, ?_⟩, ?_⟩
    · exact fun id hid hnew => hfree (List.mem_singleton.mp hnew ▸ hid)
    · rw [List.length_append]
      exact hroom
  ids := by
    simp only [Worker.startPoll, List.map_append, List.map_cons, List.map_nil]
    refine List.nodup_append'.mpr ⟨h.ids, List.nodup_singleton _, fun id hid hnew => ?_⟩
    obtain ⟨q, hq, rfl⟩ := List.mem_map.mp hid
    exact Nat.ne_of_lt (h.fresh q hq) (List.mem_singleton.mp hnew)
  fresh q hq := by
    rcases List.mem_append.mp hq with hold | hnew
    · exact Nat.lt_succ_of_lt (h.fresh q hold)
    · rw [List.mem_singleton.mp hnew]
      exact Nat.lt_succ_self _
  schedules := h.schedules
  held q hq := by
    rcases List.mem_append.mp hq with hold | hnew
    · exact h.held q hold
    · rw [List.mem_singleton.mp hnew]
      exact fun _ hschedule => by cases hschedule
  due q hq := by
    rcases List.mem_append.mp hq with hold | hnew
    · exact h.due q hold
    · rw [List.mem_singleton.mp hnew]
      exact fun _ => hdue
  spaced := h.spaced

/-- Channels that are due and fit are started in turn. -/
theorem orderly_foldl (now : Date) {channels : List Polled} :
    ∀ {w : Worker}, Orderly env w →
      Slots.Fits MAX_PARALLEL_POLLS (w.inFlight ++ channels.map Polled.id) →
      (∀ channel ∈ channels, env.IsDueAfter (pollsOf channel.id w.ended) now) →
      Orderly env (channels.foldl (Worker.startPoll now) w) ∧
        (channels.foldl (Worker.startPoll now) w).inFlight
          = w.inFlight ++ channels.map Polled.id ∧
        (channels.foldl (Worker.startPoll now) w).channels = w.channels ∧
        (channels.foldl (Worker.startPoll now) w).ended = w.ended := by
  induction channels with
  | nil =>
      intro w h _ _
      exact ⟨h, (List.append_nil _).symm, rfl, rfl⟩
  | cons channel rest ih =>
      intro w h hfits hdue
      rw [List.map_cons] at hfits
      have hfree : channel.id ∉ w.inFlight := fun hin =>
        (List.nodup_append'.mp hfits.distinct).2.2 hin List.mem_cons_self
      have hroom : w.inFlight.length < MAX_PARALLEL_POLLS := by
        have hbounded := hfits.bounded
        rw [List.length_append, List.length_cons] at hbounded
        omega
      have hstarted := inFlight_startPoll now hfree
      obtain ⟨horderly, hinFlight, hchannels, hended⟩ :=
        ih (orderly_startPoll h hfree hroom (hdue channel List.mem_cons_self))
          (by rwa [hstarted, List.append_assoc, List.singleton_append])
          fun c hc => hdue c (List.mem_cons_of_mem _ hc)
      refine ⟨horderly, ?_, hchannels, hended⟩
      rw [List.foldl_cons, hinFlight, hstarted, List.append_assoc, List.singleton_append,
        List.map_cons]

/-- The channels that a tick starts fill the free slots. -/
theorem due_take (w : Worker) (now : Date) :
    (w.due now).take (MAX_PARALLEL_POLLS - w.inFlight.length)
      = Lib.Slots.fill Polled.id MAX_PARALLEL_POLLS w.inFlight
          (w.channels.filter (w.isDue now)) := by
  rw [Lib.Slots.fill, List.filter_filter, Worker.due]
  congr 2
  funext channel
  by_cases hin : channel.id ∈ w.inFlight
  · simp [hin]
  · simp [hin]

theorem orderly_startPolls (now : Date) (h : Orderly env w) :
    Orderly env (w.startPolls now) ∧ (w.startPolls now).channels = w.channels ∧
      (w.startPolls now).ended = w.ended ∧
      ∀ channel ∈ w.channels, w.isDue now channel = true →
        channel.id ∈ (w.startPolls now).inFlight ∨
          (w.startPolls now).inFlight.length = MAX_PARALLEL_POLLS := by
  have hwaiting : ((w.channels.filter (w.isDue now)).map Polled.id).Nodup :=
    h.channels.sublist (List.filter_sublist.map _)
  rw [Worker.startPolls, due_take]
  obtain ⟨horderly, hinFlight, hchannels, hended⟩ :=
    orderly_foldl now h (h.fits.fill hwaiting) fun channel hchannel => by
      have hmem := List.mem_filter.mp (List.mem_of_mem_take hchannel)
      exact h.isDue_iff.mp (List.mem_filter.mp hmem.1).2
  refine ⟨horderly, hchannels, hended, fun channel hchannel hdue => ?_⟩
  rw [hinFlight]
  exact Lib.Slots.mem_or_full_of_waiting h.fits (List.mem_filter.mpr ⟨hchannel, hdue⟩)

/-! ## The steps of a poll -/

/-- A poll goes on to a stage at which the same is expected of it. -/
theorem orderly_setStage (h : Orderly env w) (hq : q ∈ w.polls) {stage : Stage}
    (hheld : ∀ schedule ∈ stage.schedule?, schedule = w.scheduleOf q.channel)
    (hdue : stage ≠ .reporting → q.stage ≠ .reporting) :
    Orderly env (w.setStage q.id stage) where
  channels := h.channels
  inFlight := by
    show w.inFlight = _
    rw [h.inFlight, Worker.setStage, List.map_map]
    refine List.map_congr_left fun r _ => ?_
    rw [Function.comp_apply]
    split
    · rfl
    · rfl
  fits := h.fits
  ids := by
    rw [Worker.setStage, List.map_map]
    refine (List.map_congr_left fun r _ => ?_) ▸ h.ids
    rw [Function.comp_apply]
    split
    · rfl
    · rfl
  fresh r' hr' := by
    obtain ⟨r, hr, rfl⟩ := List.mem_map.mp hr'
    split
    · exact h.fresh r hr
    · exact h.fresh r hr
  schedules := h.schedules
  held r' hr' := by
    obtain ⟨r, hr, rfl⟩ := List.mem_map.mp hr'
    split
    · next hid =>
      rw [h.eq_of_id hq hr hid]
      exact hheld
    · exact h.held r hr
  due r' hr' := by
    obtain ⟨r, hr, rfl⟩ := List.mem_map.mp hr'
    split
    · next hid =>
      rw [h.eq_of_id hq hr hid]
      exact fun hstage => h.due q hq (hdue hstage)
    · exact h.due r hr
  spaced := h.spaced

/-- The polls that are left when one ends are those of other channels. -/
theorem Orderly.mem_finish (h : Orderly env w) (hq : q ∈ w.polls) {r : Poll} :
    r ∈ (w.finish q).polls ↔ r ∈ w.polls ∧ r.channel.id ≠ q.channel.id := by
  simp only [Worker.finish, List.mem_filter, ne_eq, decide_not, Bool.not_eq_true',
    decide_eq_false_iff_not, and_congr_right_iff]
  refine fun hr => not_congr ⟨fun hid => ?_, fun hsame => ?_⟩
  · rw [h.eq_of_id hq hr hid]
  · rw [h.eq_of_channel hq hr hsame]

theorem orderly_finish (h : Orderly env w) (hq : q ∈ w.polls) : Orderly env (w.finish q) where
  channels := h.channels
  inFlight := by
    show w.inFlight.erase q.channel.id = _
    rw [h.fits.distinct.erase_eq_filter, h.inFlight, List.filter_map, Worker.finish]
    congr 1
    refine List.filter_congr fun r hr => ?_
    rw [Function.comp_apply]
    by_cases hid : r.id = q.id
    · rw [h.eq_of_id hq hr hid]
      simp
    · have hother : r.channel.id ≠ q.channel.id := fun hsame =>
        hid (by rw [h.eq_of_channel hq hr hsame])
      simp [hid, hother]
  fits := h.fits.erase _
  ids := h.ids.sublist (List.filter_sublist.map _)
  fresh r hr := h.fresh r (List.mem_filter.mp hr).1
  schedules := h.schedules
  held r hr := h.held r (List.mem_filter.mp hr).1
  due r hr := h.due r (List.mem_filter.mp hr).1
  spaced := h.spaced

/-- A poll sets the schedule that the history gives with it. -/
theorem orderly_reschedule (h : Orderly env w)
    (hothers : ∀ r ∈ w.polls, r.channel.id = q.channel.id → r.stage = .reporting)
    (hdue : env.IsDueAfter (pollsOf q.channel.id w.ended) q.startedAt) {schedule : Schedule}
    {outcome : Outcome} (hschedule : env.scheduleAfter
      (⟨q.channel, q.startedAt, now, outcome⟩ :: pollsOf q.channel.id w.ended) = some schedule) :
    Orderly env (w.reschedule q schedule now outcome) := by
  have hown : pollsOf q.channel.id (w.reschedule q schedule now outcome).ended
      = ⟨q.channel, q.startedAt, now, outcome⟩ :: pollsOf q.channel.id w.ended :=
    List.filter_cons_of_pos (decide_eq_true rfl)
  have hother : ∀ id, id ≠ q.channel.id →
      pollsOf id (w.reschedule q schedule now outcome).ended = pollsOf id w.ended :=
    fun id hid => List.filter_cons_of_neg (by simpa using fun heq => hid heq.symm)
  have hkept : ∀ r ∈ w.polls, r.stage ≠ .reporting → r.channel.id ≠ q.channel.id :=
    fun r hr hstage hsame => hstage (hothers r hr hsame)
  exact
    { channels := h.channels
      inFlight := h.inFlight
      fits := h.fits
      ids := h.ids
      fresh := h.fresh
      schedules := by
        intro id
        by_cases hid : id = q.channel.id
        · rw [hid, hown, hschedule]
          exact Function.update_self ..
        · rw [hother id hid, ← h.schedules id]
          exact Function.update_of_ne hid ..
      held := by
        intro r hr schedule' hschedule'
        have hne : r.channel.id ≠ q.channel.id := hkept r hr fun hstage => by
          rw [hstage] at hschedule'
          cases hschedule'
        rw [h.held r hr schedule' hschedule', Worker.scheduleOf, Worker.scheduleOf]
        congr 1
        exact (Function.update_of_ne hne ..).symm
      due := by
        intro r hr hstage
        have hne : r.channel.id ≠ q.channel.id := hkept r hr hstage
        rw [hother _ hne]
        exact h.due r hr hstage
      spaced := ⟨hdue, h.spaced⟩ }

/-- The failures in a schedule are those of the history. -/
theorem failures_scheduleAfter (ended : List Ended) :
    ((env.scheduleAfter ended).getD ⟨0, 0⟩).failures = failuresIn ended := by
  cases ended with
  | nil => rfl
  | cons e rest =>
      rw [WorkerEnv.scheduleAfter, failuresIn]
      cases e.outcome with
      | succeeded events => rfl
      | failed => rfl

theorem orderly_stepPoll (h : Orderly env w) (hq : q ∈ w.polls) {a : Action}
    (hs : env.stepPoll w q q.stage a = some w') : Orderly env w' := by
  have hstay : ∀ {stage : Stage}, stage.schedule? = q.stage.schedule? → q.stage ≠ .reporting →
      Orderly env (w.setStage q.id stage) := by
    intro stage hsame hstage
    refine orderly_setStage h hq (fun schedule hschedule => ?_) fun _ => hstage
    rw [hsame] at hschedule
    exact h.held q hq schedule hschedule
  have hfinished := orderly_finish h hq
  have hnone : ∀ r ∈ (w.finish q).polls, r.channel.id = q.channel.id → r.stage = .reporting :=
    fun r hr hsame => absurd hsame ((h.mem_finish hq).mp hr).2
  generalize hstage : q.stage = stage at hs hstay
  cases stage with
  | leasing =>
      cases a with
      | leased p granted =>
          simp only [WorkerEnv.stepPoll] at hs
          split at hs
          · cases hs
            refine orderly_setStage h hq (fun schedule hschedule => ?_) fun _ => by
              rw [hstage]
              exact Stage.noConfusion
            cases hschedule
            rfl
          · cases hs
            exact hfinished
      | leaseFails p =>
          cases hs
          exact hfinished
      | _ => cases hs
  | polling schedule =>
      cases a with
      | polled p events =>
          cases hs
          exact hstay rfl Stage.noConfusion
      | fails p retryable =>
          cases hs
          exact hstay rfl Stage.noConfusion
      | _ => cases hs
  | saving schedule events =>
      cases a with
      | saved p =>
          cases hs
          exact hstay rfl Stage.noConfusion
      | fails p retryable =>
          cases hs
          exact hstay rfl Stage.noConfusion
      | _ => cases hs
  | recording schedule events =>
      have hdue := h.due q hq (by rw [hstage]; exact Stage.noConfusion)
      cases a with
      | recorded p now =>
          cases hs
          exact orderly_reschedule hfinished hnone hdue rfl
      | fails p retryable =>
          cases hs
          exact hstay rfl Stage.noConfusion
      | _ => cases hs
  | releasing schedule retryable =>
      have hdue := h.due q hq (by rw [hstage]; exact Stage.noConfusion)
      have hfailures : schedule.failures = failuresIn (pollsOf q.channel.id w.ended) := by
        rw [h.held q hq schedule (by rw [hstage]; rfl), Worker.scheduleOf, h.schedules,
          failures_scheduleAfter]
      cases a with
      | released p now =>
          simp only [WorkerEnv.stepPoll, hfailures] at hs
          split at hs
          · cases hs
            have hmoved : Orderly env (w.setStage q.id .reporting) :=
              orderly_setStage h hq (fun _ hschedule => by cases hschedule)
                fun hne => absurd rfl hne
            refine orderly_reschedule hmoved (fun r' hr' hsame => ?_) hdue rfl
            obtain ⟨r, hr, rfl⟩ := List.mem_map.mp hr'
            split
            · rfl
            · next hid =>
              rw [if_neg hid] at hsame
              exact absurd (by rw [h.eq_of_channel hq hr hsame]) hid
          · cases hs
            exact orderly_reschedule hfinished hnone hdue rfl
      | _ => cases hs
  | reporting =>
      cases a with
      | reported p =>
          cases hs
          exact hfinished
      | _ => cases hs

/-! ## The ticks -/

/-- The steps that are those of a poll. -/
theorem step_poll {a : Action} (ha : a.poll?.isSome) (hs : env.step w a = some w') :
    ∃ q ∈ w.polls, env.stepPoll w q q.stage a = some w' := by
  have hbind : (do
      let p ← a.poll?
      let q ← w.polls.find? fun q => q.id = p
      env.stepPoll w q q.stage a) = some w' := by
    cases a with
    | tick | discovered | stop => cases ha
    | _ => exact hs
  simp only [Option.bind_eq_bind, Option.bind_eq_some_iff] at hbind
  obtain ⟨p, _, q, hfind, hstep⟩ := hbind
  exact ⟨q, List.mem_of_find?_eq_some hfind, hstep⟩

/-- What a tick starts fills the slots. -/
theorem fills_startPolls (h : Orderly env w) {channel : Polled} (hchannel : channel ∈ w.channels)
    (hdue : env.IsDueAfter (pollsOf channel.id w.ended) now) :
    channel.id ∈ (w.startPolls now).polls.map (fun q => q.channel.id) ∨
      (w.startPolls now).polls.length = MAX_PARALLEL_POLLS := by
  obtain ⟨hstarted, _, _, hfull⟩ := orderly_startPolls now h
  have hwhich := hfull channel hchannel (h.isDue_iff.mpr hdue)
  rwa [hstarted.inFlight, List.length_map] at hwhich

theorem orderly_step (h : Orderly env w) {a : Action} (hs : env.step w a = some w') :
    Orderly env w' ∧ env.Fills w a w' := by
  cases a with
  | tick k now =>
      simp only [WorkerEnv.step] at hs
      split at hs
      · next hstopped =>
        cases hs
        refine ⟨h, fun t ht => ?_⟩
        rw [Worker.ticks, hstopped, Bool.true_or, if_pos rfl] at ht
        cases ht
      · next hrunning =>
        split at hs
        · next hdiscovers =>
          split at hs
          · cases hs
          · cases hs
            refine ⟨⟨h.channels, h.inFlight, h.fits, h.ids, h.fresh, h.schedules, h.held, h.due,
              h.spaced⟩, fun t ht => ?_⟩
            rw [Worker.ticks, decide_eq_true hdiscovers, Bool.or_true, if_pos rfl] at ht
            cases ht
        · cases hs
          obtain ⟨hstarted, hchannels, hended, _⟩ := orderly_startPolls now h
          refine ⟨hstarted, fun t ht channel hchannel hdue => ?_⟩
          have hnow : t = now := by
            rw [Worker.ticks] at ht
            split at ht
            · cases ht
            · exact (Option.some.inj ht).symm
          rw [hnow, hended] at hdue
          rw [hchannels] at hchannel
          exact fills_startPolls h hchannel hdue
  | discovered k found =>
      simp only [WorkerEnv.step] at hs
      split at hs
      · cases hs
      · next now htick =>
        split at hs
        · next hdistinct =>
          cases hs
          have hchannels : ((found.getD w.channels).map Polled.id).Nodup := by
            cases found with
            | none => exact h.channels
            | some channels => exact of_decide_eq_true hdistinct
          have hfound : Orderly env { w with
              channels := found.getD w.channels
              tick := Function.update w.tick k none } :=
            ⟨hchannels, h.inFlight, h.fits, h.ids, h.fresh, h.schedules, h.held, h.due, h.spaced⟩
          obtain ⟨hstarted, hsame, hended, _⟩ := orderly_startPolls now hfound
          refine ⟨hstarted, fun t ht channel hchannel hdue => ?_⟩
          rw [Worker.ticks, htick] at ht
          cases ht
          rw [hended] at hdue
          rw [hsame] at hchannel
          exact fills_startPolls hfound hchannel hdue
        · cases hs
  | stop =>
      cases hs
      exact ⟨⟨h.channels, h.inFlight, h.fits, h.ids, h.fresh, h.schedules, h.held, h.due,
        h.spaced⟩, fun t ht => by cases ht⟩
  | leased | leaseFails | polled | saved | recorded | fails | released | reported =>
      obtain ⟨q, hq, hstep⟩ := step_poll rfl hs
      exact ⟨orderly_stepPoll h hq hstep, fun t ht => by cases ht⟩

/-- In every run of a worker, with ticks that overlap and polls that end in any
order, the polls keep their distance and the ticks fill the slots. -/
theorem scheduled_of_run {as : List Action} (h : env.machine.run {} as = some w) :
    env.Scheduled w ∧ env.machine.Along env.Fills {} as := by
  constructor
  · exact (Machine.invariant (M := env.machine) (I := Orderly env)
      (fun _ _ _ hw hs => (orderly_step hw hs).1) orderly_init h).scheduled
  · exact Machine.along_of_along (M := env.machine) (I := Orderly env) (P := fun _ _ _ => True)
      (fun _ _ _ hw hs _ => orderly_step hw hs) orderly_init
      (Machine.along_of_forall (fun _ _ _ _ _ => trivial) _)

/-! ## A mailbox that fails once -/

def exampleEnv : WorkerEnv := ⟨30, 3⟩

/-- A mailbox fails while a bot has many updates.  At the next tick both are due
again, the mailbox just so. -/
def failsOnce : List Action :=
  [.tick 0 10000, .discovered 0 (some [⟨"mail", .email⟩, ⟨"bot", .telegram⟩]),
    .leased 0 true, .leased 1 true, .fails 0 true, .polled 1 12, .saved 1,
    .released 0 20000, .recorded 1 21000, .tick 1 80000, .discovered 1 none]

theorem scheduled_failsOnce : ∃ w, exampleEnv.machine.run {} failsOnce = some w ∧
    w.polls.map (fun q => (q.channel.id, q.startedAt)) = [("mail", 80000), ("bot", 80000)] ∧
    w.ended.map (fun e => (e.channel.id, e.endedAt)) = [("bot", 21000), ("mail", 20000)] ∧
    exampleEnv.Scheduled w := by
  have hview : (exampleEnv.machine.run {} failsOnce).map (fun w =>
      (w.polls.map fun q => (q.channel.id, q.startedAt),
        w.ended.map fun e => (e.channel.id, e.endedAt)))
        = some ([("mail", 80000), ("bot", 80000)], [("bot", 21000), ("mail", 20000)]) := by decide
  obtain ⟨w, hw, hpair⟩ := Option.map_eq_some_iff.mp hview
  rw [Prod.mk.injEq] at hpair
  exact ⟨w, hw, hpair.1, hpair.2, (scheduled_of_run hw).1⟩

end Vynor.Polling.Scheduler
