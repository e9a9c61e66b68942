import Vynor.Inbound.Handover

/-!
# What the tables and the queue know of an event

Every provider event has exactly one `webhook.received` row (`Named`), and the
jobs of the queue are copies of rows (`Outbox.Copies`).
-/

namespace Vynor.Inbound.Handover

open Lib (Table)
open Journal (ProviderEvent PROVIDER_EVENT_RECEIVED names)
open Outbox (OutboxEvent SameContent Copies)
open Queue (Job)

/-! ## Rows and events -/

theorem names_congr {a b : OutboxEvent} (h : SameContent a b) (id : Id) : names id a = names id b := by
  rw [names, names, h.eventType, h.payload]

/-- A row names at most one event. -/
theorem payload_of_names {o : OutboxEvent} {id : Id} (h : names id o = true) :
    o.payload.get? "providerEventId" = some id := by
  simp only [names, Bool.and_eq_true, decide_eq_true_eq] at h
  exact h.2

theorem eventType_of_names {o : OutboxEvent} {id : Id} (h : names id o = true) :
    o.eventType = PROVIDER_EVENT_RECEIVED := by
  simp only [names, Bool.and_eq_true, decide_eq_true_eq] at h
  exact h.1

/-- An outbox row created by another service names no provider event. -/
theorem not_names_of_foreign {outboxId : Id} {now : Date} {params : Outbox.CreateOutboxEventParams}
    (h : foreign (.create outboxId now params) = true) (id : Id) :
    names id (Outbox.newOutboxEvent outboxId now params) = false := by
  simp only [foreign, ne_eq, decide_eq_true_eq] at h
  simp [names, Outbox.newOutboxEvent, h]

/-- A row that names an event after a step of the outbox named it before. -/
theorem naming_of_step {v v' : Outbox.World} {a : Outbox.Action} (h : Outbox.step v a = some v')
    (hforeign : foreign a = true) {o' : OutboxEvent} (ho' : o' ∈ v'.events.rows) {id : Id}
    (hnames : names id o' = true) : ∃ o ∈ v.events.rows, names id o = true ∧ o.id = o'.id := by
  rcases Outbox.row_of_step h ho' with ⟨o, ho, hrow⟩ | ⟨outboxId, now, params, rfl, rfl⟩
  · exact ⟨o, ho, by rw [names_congr hrow.sameContent, hnames], hrow.sameContent.id⟩
  · rw [not_names_of_foreign hforeign] at hnames
    cases hnames

/-- A row that names an event still does after a step of the outbox. -/
theorem still_naming {v v' : Outbox.World} {a : Outbox.Action} (h : Outbox.step v a = some v')
    {o : OutboxEvent} (ho : o ∈ v.events.rows) {id : Id} (hnames : names id o = true) :
    ∃ o' ∈ v'.events.rows, names id o' = true ∧ o'.id = o.id := by
  obtain ⟨o', hfind, hrow⟩ := Outbox.step_row h (Outbox.find?_of_mem ho)
  exact ⟨o', (Table.find?_eq_some.mp hfind).1, by rw [← names_congr hrow.sameContent, hnames],
    hrow.sameContent.id.symm⟩

/-- Every event has one row that hands it over. -/
structure Named (w : World) : Prop where
  nonempty : statusOf? w.runs.events "" = none
  exists_row : ∀ id, (statusOf? w.runs.events id).isSome = true →
    ∃ o ∈ w.outbox.events.rows, names id o = true
  unique : ∀ id, ∀ o ∈ w.outbox.events.rows, ∀ o' ∈ w.outbox.events.rows,
    names id o = true → names id o' = true → o = o'
  known : ∀ id, ∀ o ∈ w.outbox.events.rows, names id o = true →
    (statusOf? w.runs.events id).isSome = true

theorem named_init : Named World.init where
  nonempty := rfl
  exists_row _ h := nomatch h
  unique _ _ h := nomatch h
  known _ _ h := nomatch h

section Named

variable {w w' : World}

/-- Events are neither added nor removed, and the outbox keeps its rows. -/
theorem Named.of_rows (hw : Named w)
    (hsome : ∀ id, (statusOf? w'.runs.events id).isSome = (statusOf? w.runs.events id).isSome)
    (hrows : w'.outbox.events = w.outbox.events) : Named w' where
  nonempty := by
    have hnone := hsome ""
    rw [hw.nonempty] at hnone
    exact Option.isNone_iff_eq_none.mp (by simpa using hnone)
  exists_row id h := hrows ▸ hw.exists_row id (hsome id ▸ h)
  unique := hrows ▸ hw.unique
  known id o ho hnames := by
    rw [hsome]
    exact hw.known id o (hrows ▸ ho) hnames

/-- The outbox takes a step of its own. -/
theorem Named.of_outbox (hw : Named w) (hruns : w'.runs = w.runs) {a : Outbox.Action}
    (h : Outbox.step w.outbox a = some w'.outbox) (hforeign : foreign a = true) : Named w' where
  nonempty := hruns ▸ hw.nonempty
  exists_row id hid := by
    obtain ⟨o, ho, hnames⟩ := hw.exists_row id (hruns ▸ hid)
    obtain ⟨o', ho', hnames', _⟩ := still_naming h ho hnames
    exact ⟨o', ho', hnames'⟩
  unique id o₁' h₁' o₂' h₂' hn₁' hn₂' := by
    obtain ⟨o₁, h₁, hn₁, hid₁⟩ := naming_of_step h hforeign h₁' hn₁'
    obtain ⟨o₂, h₂, hn₂, hid₂⟩ := naming_of_step h hforeign h₂' hn₂'
    have heq := hw.unique id o₁ h₁ o₂ h₂ hn₁ hn₂
    exact OutboxEvent.eq_of_id h₁' h₂' (by rw [← hid₁, ← hid₂, heq])
  known id o' ho' hnames' := by
    obtain ⟨o, ho, hnames, _⟩ := naming_of_step h hforeign ho' hnames'
    rw [hruns]
    exact hw.known id o ho hnames

/-- An event is journaled with its row. -/
theorem Named.of_journal (hw : Named w) {event : ProviderEvent} {row : OutboxEvent}
    {events : ProviderEvents} {outbox : Outbox.Events} (hne : event.id ≠ "")
    (hevents : w.runs.events.insert? event = some events)
    (houtbox : w.outbox.events.insert? row = some outbox)
    (hrow : ∀ id, names id row = true ↔ event.id = id) (hw'e : w'.runs.events = events)
    (hw'o : w'.outbox.events = outbox) : Named w' := by
  have hstatus : ∀ id, statusOf? w'.runs.events id
      = if id = event.id then some event.status else statusOf? w.runs.events id := by
    intro id
    rw [hw'e, statusOf?_insert hevents]
  have hrows : ∀ o, o ∈ w'.outbox.events.rows ↔ o ∈ w.outbox.events.rows ∨ o = row := by
    intro o
    rw [hw'o, (Table.insert?_eq_some.mp houtbox).2, List.mem_append, List.mem_singleton]
  -- No row named the event before, since it was not there.
  have hfresh : ∀ o ∈ w.outbox.events.rows, names event.id o = false := by
    intro o ho
    by_contra hnames
    have hknown := hw.known event.id o ho (by simpa using hnames)
    rw [statusOf?_of_insert_new hevents] at hknown
    cases hknown
  constructor
  · rw [hstatus, if_neg (Ne.symm hne), hw.nonempty]
  · intro id hid
    by_cases heq : id = event.id
    · exact ⟨row, (hrows row).mpr (Or.inr rfl), (hrow id).mpr heq.symm⟩
    · rw [hstatus, if_neg heq] at hid
      obtain ⟨o, ho, hnames⟩ := hw.exists_row id hid
      exact ⟨o, (hrows o).mpr (Or.inl ho), hnames⟩
  · intro id o ho o' ho' hn hn'
    rcases (hrows o).mp ho with hold | rfl
    · rcases (hrows o').mp ho' with hold' | rfl
      · exact hw.unique id o hold o' hold' hn hn'
      · rw [← (hrow id).mp hn', hfresh o hold] at hn
        cases hn
    · rcases (hrows o').mp ho' with hold' | rfl
      · rw [← (hrow id).mp hn, hfresh o' hold'] at hn'
        cases hn'
      · rfl
  · intro id o ho hnames
    rw [hstatus]
    split
    · rfl
    next hne' =>
      rcases (hrows o).mp ho with hold | rfl
      · exact hw.known id o hold hnames
      · exact absurd ((hrow id).mp hnames).symm hne'

end Named

/-! ## Steps -/

/-- What a step does to the outbox. -/
inductive OutboxChange (w w' : World) : Prop where
  | same : w'.outbox = w.outbox → OutboxChange w w'
  | stepped {a : Outbox.Action} : Outbox.step w.outbox a = some w'.outbox → OutboxChange w w'
  | lost {job : Job} :
      w'.outbox = { w.outbox with accepted := w.outbox.accepted.erase job } → OutboxChange w w'

section Step

variable {w w' : World} {a : Action}

theorem outboxChange_of_step (h : step w a = some w') : OutboxChange w w' := by
  cases a with
  | journal params event id outboxId startedAt now =>
      obtain ⟨_, events, outbox, _, houtbox, rfl⟩ := of_step_journal h
      refine .stepped (a := .create outboxId now (Journal.receivedParams params id)) ?_
      show (Outbox.createOutboxEvent _ _ _ _).map _ = _
      exact Option.map_eq_some_iff.mpr ⟨outbox, houtbox, rfl⟩
  | dispatch a =>
      obtain ⟨_, outbox, houtbox, rfl⟩ := of_step_dispatch h
      exact .stepped houtbox
  | start job i =>
      obtain ⟨_, _, _, rfl⟩ := of_step_start h
      exact .same rfl
  | process a =>
      obtain ⟨_, runs, _, rfl⟩ := of_step_process h
      exact .same rfl
  | settle job =>
      obtain ⟨_, run, _, _, _, rfl⟩ := of_step_settle h
      exact .same rfl
  | stall job =>
      obtain ⟨_, _, _, rfl⟩ := of_step_stall h
      exact .same rfl
  | lose job =>
      cases h
      exact .lost rfl
  | replay eventId now =>
      obtain ⟨_, events, _, rfl⟩ := of_step_replay h
      exact .same rfl

/-- Jobs that are lost leave copies. -/
theorem copies_erase {v : Outbox.World} (hv : Copies v) (job : Job) :
    Copies { v with accepted := v.accepted.erase job } :=
  { hv with
    accepted := fun j hj => hv.accepted j (List.mem_of_mem_erase hj)
    onePerKey := fun j hj j' hj' =>
      hv.onePerKey j (List.mem_of_mem_erase hj) j' (List.mem_of_mem_erase hj') }

theorem copies_of_step (hw : Copies w.outbox) (h : step w a = some w') : Copies w'.outbox := by
  cases outboxChange_of_step h with
  | same heq => exact heq ▸ hw
  | stepped hstep => exact Outbox.copies_step hw hstep
  | lost heq => exact heq ▸ copies_erase hw _

theorem inner_isJournal {a : Runs.Action} (h : inner a = true) : a.isJournal = false := by
  cases a with
  | journal => cases h
  | _ => rfl

/-- Every step keeps one row for each event. -/
theorem named_of_step (hw : Named w) (h : step w a = some w') : Named w' := by
  cases a with
  | journal params event id outboxId startedAt now =>
      obtain ⟨hne, events, outbox, hevents, houtbox, rfl⟩ := of_step_journal h
      exact hw.of_journal hne hevents houtbox (fun _ => Journal.names_receivedEvent) rfl rfl
  | dispatch a =>
      obtain ⟨hforeign, outbox, houtbox, rfl⟩ := of_step_dispatch h
      exact hw.of_outbox rfl houtbox hforeign
  | start job i =>
      obtain ⟨_, _, _, rfl⟩ := of_step_start h
      exact hw.of_rows (fun _ => rfl) rfl
  | process a =>
      obtain ⟨hinner, runs, hruns, rfl⟩ := of_step_process h
      exact hw.of_rows (Runs.isSome_statusOf?_of_step hruns (inner_isJournal hinner)) rfl
  | settle job =>
      obtain ⟨_, run, _, _, _, rfl⟩ := of_step_settle h
      exact hw.of_rows (fun _ => rfl) rfl
  | stall job =>
      obtain ⟨_, _, _, rfl⟩ := of_step_stall h
      exact hw.of_rows (fun _ => rfl) rfl
  | lose job =>
      cases h
      exact hw.of_rows (fun _ => rfl) rfl
  | replay eventId now =>
      obtain ⟨r, events, hreplay, rfl⟩ := of_step_replay h
      exact hw.of_rows (isSome_statusOf?_replay hreplay) rfl

end Step

end Vynor.Inbound.Handover
