import Vynor.Journal.Events

/-!
# A batch in an atomic transaction

`journalProviderEventsInTransaction` for a caller whose transaction is taken as
one step: it reads and writes the tables as they are then.  The ids it
generates are arguments.
-/

namespace Vynor.Journal

open Lib (Table)

abbrev ProviderEvents := Table ProviderEvent ProviderEvent.keys

/-- The tables a batch writes. -/
structure Tables where
  events : ProviderEvents
  outbox : Outbox.Events

/-- `createManyAndReturn` with `skipDuplicates`: the table, and the ids of the
rows it created. -/
def createMany (t : ProviderEvents) : List ProviderEvent → Option (ProviderEvents × List Id)
  | [] => some (t, [])
  | row :: rest =>
      match t.find? (.provider row.providerAccountId row.providerEventKey) with
      | some _ => createMany t rest
      | none => do
          let t ← t.insert? row
          let (t, created) ← createMany t rest
          some (t, row.id :: created)

/-- The outbox rows of the created events. -/
def queueCreated (t : Outbox.Events) (params : JournalProviderEventsParams) (now : Date) :
    List (Id × Id) → Option Outbox.Events
  | [] => some t
  | (event, id) :: rest => do
      let t ← Outbox.createOutboxEvent t id now (receivedParams params event)
      queueCreated t params now rest

/-- `journalProviderEventsInTransaction`. -/
def journalProviderEventsInTransaction (t : Tables) (params : JournalProviderEventsParams)
    (now : Date) (eventIds outboxIds : Nat → Id) : Option (Tables × JournalProviderEventsResult) :=
  if params.events = [] then some (t, ⟨[], 0⟩)
  else do
    let rows := (uniqueEvents params.events).mapIdx fun n event =>
      newProviderEvent params (purgeAfter params now) (eventIds n) event
    let (events, created) ← createMany t.events rows
    let outbox ← queueCreated t.outbox params now (created.mapIdx fun n id => (id, outboxIds n))
    some (⟨events, outbox⟩, ⟨created, params.events.length - created.length⟩)

/-- There is an event under a key of a channel. -/
def HasEvent (t : ProviderEvents) (providerAccountId : Id) (key : String) : Prop :=
  ∃ e, t.find? (.provider providerAccountId key) = some e

/-- A batch takes no row away. -/
theorem find?_of_createMany {rows : List ProviderEvent} {k : EventKey} {e : ProviderEvent} :
    ∀ {t t' : ProviderEvents} {created : List Id}, createMany t rows = some (t', created) →
      t.find? k = some e → t'.find? k = some e := by
  induction rows with
  | nil =>
      intro t t' created h he
      cases h
      exact he
  | cons row rows ih =>
      intro t t' created h he
      rw [createMany] at h
      split at h
      · exact ih h he
      · simp only [Option.bind_eq_bind, Option.bind_eq_some_iff] at h
        obtain ⟨t1, hinsert, ⟨t2, created'⟩, hrest, heq⟩ := h
        cases heq
        exact ih hrest (Table.find?_of_insert?_of_some hinsert he)

/-- Each row of a batch is in the table, or another one is under its key. -/
theorem hasEvent_of_createMany {rows : List ProviderEvent} {row : ProviderEvent} :
    ∀ {t t' : ProviderEvents} {created : List Id}, createMany t rows = some (t', created) →
      row ∈ rows → HasEvent t' row.providerAccountId row.providerEventKey := by
  induction rows with
  | nil =>
      intro t t' created _ hrow
      cases hrow
  | cons first rows ih =>
      intro t t' created h hrow
      rw [createMany] at h
      split at h
      next e he =>
        rcases List.mem_cons.mp hrow with rfl | hrow
        · exact ⟨e, find?_of_createMany h he⟩
        · exact ih h hrow
      · simp only [Option.bind_eq_bind, Option.bind_eq_some_iff] at h
        obtain ⟨t1, hinsert, ⟨t2, created'⟩, hrest, heq⟩ := h
        cases heq
        rcases List.mem_cons.mp hrow with rfl | hrow
        · have hnew : t1.find? (.provider row.providerAccountId row.providerEventKey) = some row := by
            rw [Table.find?_of_insert? hinsert, if_pos (by simp)]
          exact ⟨row, find?_of_createMany hrest hnew⟩
        · exact ih hrest hrow

/-- Every row after a batch was there or is one of the batch. -/
theorem mem_of_createMany {rows : List ProviderEvent} {row : ProviderEvent} :
    ∀ {t t' : ProviderEvents} {created : List Id}, createMany t rows = some (t', created) →
      row ∈ t'.rows → row ∈ t.rows ∨ row ∈ rows := by
  induction rows with
  | nil =>
      intro t t' created h hrow
      cases h
      exact Or.inl hrow
  | cons first rows ih =>
      intro t t' created h hrow
      rw [createMany] at h
      split at h
      · exact (ih h hrow).imp_right (List.mem_cons_of_mem first)
      · simp only [Option.bind_eq_bind, Option.bind_eq_some_iff] at h
        obtain ⟨t1, hinsert, ⟨t2, created'⟩, hrest, heq⟩ := h
        cases heq
        rcases ih hrest hrow with hold | hnew
        · rw [(Table.insert?_eq_some.mp hinsert).2] at hold
          rcases List.mem_append.mp hold with hrow | hrow
          · exact Or.inl hrow
          · exact Or.inr (List.mem_singleton.mp hrow ▸ List.mem_cons_self)
        · exact Or.inr (List.mem_cons_of_mem first hnew)

/-- A batch creates no more rows than it has. -/
theorem length_created_le {rows : List ProviderEvent} :
    ∀ {t t' : ProviderEvents} {created : List Id}, createMany t rows = some (t', created) →
      created.length ≤ rows.length := by
  induction rows with
  | nil =>
      intro t t' created h
      cases h
      exact Nat.le_refl _
  | cons first rows ih =>
      intro t t' created h
      rw [createMany] at h
      split at h
      · exact Nat.le_succ_of_le (ih h)
      · simp only [Option.bind_eq_bind, Option.bind_eq_some_iff] at h
        obtain ⟨t1, _, ⟨t2, created'⟩, hrest, heq⟩ := h
        cases heq
        exact Nat.succ_le_succ (ih hrest)

section Batch

variable {t t' : Tables} {params : JournalProviderEventsParams} {now : Date}
  {eventIds outboxIds : Nat → Id} {result : JournalProviderEventsResult}

/-- What a batch does to the events. -/
theorem createMany_of_batch
    (h : journalProviderEventsInTransaction t params now eventIds outboxIds = some (t', result)) :
    t'.events = t.events ∧ params.events = [] ∨
      ∃ created, createMany t.events ((uniqueEvents params.events).mapIdx fun n event =>
        newProviderEvent params (purgeAfter params now) (eventIds n) event) =
          some (t'.events, created) := by
  rw [journalProviderEventsInTransaction] at h
  split at h
  next hempty =>
    cases h
    exact Or.inl ⟨rfl, hempty⟩
  · simp only [Option.bind_eq_bind, Option.bind_eq_some_iff] at h
    obtain ⟨⟨events, created⟩, hcreate, outbox, _, heq⟩ := h
    cases heq
    exact Or.inr ⟨created, hcreate⟩

/-- Events stay in the journal. -/
theorem HasEvent.batch {account : Id} {key : String} (hkey : HasEvent t.events account key)
    (h : journalProviderEventsInTransaction t params now eventIds outboxIds = some (t', result)) :
    HasEvent t'.events account key := by
  rcases createMany_of_batch h with ⟨heq, _⟩ | ⟨created, hcreate⟩
  · rw [heq]
    exact hkey
  · obtain ⟨e, he⟩ := hkey
    exact ⟨e, find?_of_createMany hcreate he⟩

/-- Every event of a batch is journaled under its key. -/
theorem hasEvent_of_batch
    (h : journalProviderEventsInTransaction t params now eventIds outboxIds = some (t', result))
    {event : JournalEventInput} (hevent : event ∈ params.events) :
    HasEvent t'.events params.providerAccountId event.providerEventKey := by
  rcases createMany_of_batch h with ⟨_, hempty⟩ | ⟨created, hcreate⟩
  · rw [hempty] at hevent
    cases hevent
  · obtain ⟨u, hu, hkey⟩ := exists_uniqueEvent hevent
    obtain ⟨n, hn, hget⟩ := List.mem_iff_getElem.mp hu
    have hrow : newProviderEvent params (purgeAfter params now) (eventIds n) u ∈
        (uniqueEvents params.events).mapIdx fun n event =>
          newProviderEvent params (purgeAfter params now) (eventIds n) event :=
      List.mem_mapIdx.mpr ⟨n, hn, by rw [hget]⟩
    rw [← hkey]
    exact hasEvent_of_createMany hcreate hrow

/-- Every row after a batch was there or is that of one of its events. -/
theorem mem_of_batch
    (h : journalProviderEventsInTransaction t params now eventIds outboxIds = some (t', result))
    {row : ProviderEvent} (hrow : row ∈ t'.events.rows) :
    row ∈ t.events.rows ∨ ∃ event ∈ params.events, ∃ id,
      row = newProviderEvent params (purgeAfter params now) id event := by
  rcases createMany_of_batch h with ⟨heq, _⟩ | ⟨created, hcreate⟩
  · rw [heq] at hrow
    exact Or.inl hrow
  · refine (mem_of_createMany hcreate hrow).imp_right fun hnew => ?_
    obtain ⟨n, hn, rfl⟩ := List.mem_mapIdx.mp hnew
    exact ⟨_, mem_of_mem_uniqueEvents (List.getElem_mem hn), _, rfl⟩

/-- Every event of a batch is accepted or a duplicate. -/
theorem accepted_add_duplicates
    (h : journalProviderEventsInTransaction t params now eventIds outboxIds = some (t', result)) :
    result.acceptedEventIds.length + result.duplicateCount = params.events.length := by
  rw [journalProviderEventsInTransaction] at h
  split at h
  · next hempty =>
      cases h
      rw [hempty]
      rfl
  · simp only [Option.bind_eq_bind, Option.bind_eq_some_iff] at h
    obtain ⟨⟨events, created⟩, hcreate, outbox, _, heq⟩ := h
    cases heq
    have hcreated := length_created_le hcreate
    rw [List.length_mapIdx] at hcreated
    exact Nat.add_sub_cancel' (Nat.le_trans hcreated (length_uniqueEvents_le params.events))

end Batch

end Vynor.Journal
