import Vynor.Journal.Batch
import Vynor.Lib.Machine
import Vynor.Webhooks.Routing
import Mathlib.Algebra.GroupWithZero.Nat

/-!
# Deliveries of a webhook

`WebhookIngestService.handle` from the routed batch on.  The groups are journaled
one after another, each in a transaction of its own, so a delivery that fails
leaves the groups before the failure in the journal.  The provider then delivers
the body again, any number of times, also while another delivery is under way.

The channels of a journaled group are in the invariant by name.  What an answer
counts is the sum over the groups, and the groups hold the routed events.
-/

namespace Vynor.Webhooks

open Lib
open Journal (EventKey HasEvent JournalEventInput JournalProviderEventsParams
  ProviderEvent ProviderEvents Tables journalProviderEventsInTransaction)

/-- `JOURNALED_HEADERS`. -/
def JOURNALED_HEADERS : List String := ["content-type", "user-agent"]

/-- A header of a request: a text, or several. -/
inductive HeaderValue where
  | one (value : String)
  | many (values : List String)
deriving DecidableEq, Repr

/-- The headers that are journaled. -/
def journaledHeaders (headers : List (String × HeaderValue)) : Payload :=
  JOURNALED_HEADERS.flatMap fun name =>
    match OrderedMap.get? headers name with
    | some (.one value) => [(name, value)]
    | _ => []

/-- What a group is journaled with. -/
def groupParams (target : Channel) (headers : Payload) (correlationId : String)
    (group : List ExtractedProviderEvent) : JournalProviderEventsParams where
  workspaceId := target.workspaceId
  providerAccountId := target.id
  provider := providerName target.provider
  channelType := target.channelType
  correlationId := correlationId
  events := group.map fun event =>
    { providerEventKey := event.providerEventKey
      isFingerprinted := event.isFingerprinted
      payload := event.payload
      headers := some headers }

/-! ## The deliveries -/

abbrev DeliveryId := Nat

/-- Where a delivery stands: the groups that are left, and the counts so far. -/
inductive Delivery where
  | waiting
  | journaling (headers : Payload) (correlationId : String)
      (rest : List (Id × List ExtractedProviderEvent)) (accepted duplicates : Nat)
  | answered (accepted duplicates : Nat)
  | failed
deriving DecidableEq, Repr

structure World where
  journal : Tables
  delivery : DeliveryId → Delivery

def World.setDelivery (w : World) (d : DeliveryId) (s : Delivery) : World :=
  { w with delivery := Function.update w.delivery d s }

/-- The world before the first delivery. -/
def World.init (journal : Tables) : World := ⟨journal, fun _ => .waiting⟩

/-- What can happen next, with the time and the ids a transaction takes. -/
inductive Action where
  | receive (d : DeliveryId) (headers : List (String × HeaderValue)) (correlationId : String)
  | journal (d : DeliveryId) (now : Date) (eventIds outboxIds : Nat → Id)
  | answer (d : DeliveryId)
  | fail (d : DeliveryId)

namespace Webhook

variable (W : Webhook)

/-- The channel of a group. -/
def targetChannel (targetId : Id) : Option Channel :=
  if targetId = W.channel.id then some W.channel else W.channels.find? (.id targetId)

/-- One turn of the loop of `handle`: the tables and the counts after it. -/
def journalGroup (t : Tables) (headers : Payload) (correlationId : String) (targetId : Id)
    (group : List ExtractedProviderEvent) (accepted duplicates : Nat) (now : Date)
    (eventIds outboxIds : Nat → Id) : Option (Tables × Nat × Nat) :=
  match W.targetChannel targetId with
  | none => some (t, accepted, duplicates)
  | some target => do
      let (t, result) ← journalProviderEventsInTransaction t
        (groupParams target headers correlationId group) now eventIds outboxIds
      some (t, accepted + result.acceptedEventIds.length, duplicates + result.duplicateCount)

def step (w : World) : Action → Option World
  | .receive d headers correlationId =>
      match w.delivery d with
      | .waiting =>
          some (w.setDelivery d (.journaling (journaledHeaders headers) correlationId W.route 0 0))
      | _ => none
  | .journal d now eventIds outboxIds =>
      match w.delivery d with
      | .journaling headers correlationId ((targetId, group) :: rest) accepted duplicates => do
          let (t, accepted, duplicates) ← W.journalGroup w.journal headers correlationId targetId
            group accepted duplicates now eventIds outboxIds
          some { journal := t
                 delivery := Function.update w.delivery d
                   (.journaling headers correlationId rest accepted duplicates) }
      | _ => none
  | .answer d =>
      match w.delivery d with
      | .journaling _ _ [] accepted duplicates =>
          some (w.setDelivery d (.answered accepted duplicates))
      | _ => none
  | .fail d =>
      match w.delivery d with
      | .journaling _ _ _ _ _ => some (w.setDelivery d .failed)
      | _ => none

def machine : Machine World Action := ⟨W.step⟩

/-! ## One group -/

/-- The row of an event under a channel. -/
structure FiledAs (row : ProviderEvent) (c : Channel) (event : ExtractedProviderEvent) : Prop where
  workspaceId : row.workspaceId = c.workspaceId
  providerAccountId : row.providerAccountId = c.id
  provider : row.provider = providerName c.provider
  channelType : row.channelType = c.channelType
  providerEventKey : row.providerEventKey = event.providerEventKey
  isFingerprinted : row.isFingerprinted = event.isFingerprinted
  payload : row.payload = event.payload

/-- The row of an event of the body, under the channel the event belongs to. -/
def Files (row : ProviderEvent) : Prop :=
  ∃ event ∈ W.events, ∃ c ∈ W.channels.rows, W.BelongsTo event c ∧ FiledAs row c event

/-- What one turn of the loop does. -/
structure Journals (targetId : Id) (group : List ExtractedProviderEvent) (t t' : Tables)
    (before after : Nat) : Prop where
  kept : ∀ account key, HasEvent t.events account key → HasEvent t'.events account key
  stored : ∀ event ∈ group, HasEvent t'.events targetId event.providerEventKey
  origin : ∀ row ∈ t'.events.rows, row ∈ t.events.rows ∨ W.Files row
  counted : after = before + group.length

variable {W}

theorem eq_of_channelId {c c' : Channel} (hc : c ∈ W.channels.rows) (hc' : c' ∈ W.channels.rows)
    (hid : c.id = c'.id) : c = c' := by
  refine Table.eq_of_shared_key hc hc' (k := .id c.id) List.mem_cons_self ?_
  rw [hid]
  exact List.mem_cons_self

/-- A group of `route` is that of a channel, and its events belong there. -/
theorem channel_of_group {targetId : Id} {group : List ExtractedProviderEvent}
    (hgroup : (targetId, group) ∈ W.route) :
    ∃ c ∈ W.channels.rows, c.id = targetId ∧ W.targetChannel targetId = some c ∧
      ∀ event ∈ group, event ∈ W.events ∧ W.BelongsTo event c := by
  rw [route_eq_groupBy] at hgroup
  obtain ⟨event, _, htarget⟩ := OrderedMap.mem_keys_groupBy (List.mem_map_of_mem hgroup)
  obtain ⟨c, hc, _, hid : c.id = targetId⟩ := target_eq_some.mp htarget
  have hfilter : group = W.events.filter fun event => W.target event = some targetId :=
    OrderedMap.eq_of_mem_groupBy hgroup
  refine ⟨c, hc, hid, ?_, ?_⟩
  · rw [targetChannel]
    by_cases hown : targetId = W.channel.id
    · rw [if_pos hown, eq_of_channelId W.mem hc (hown.symm.trans hid.symm)]
    · rw [if_neg hown, Table.find?_eq_some, ← hid]
      exact ⟨hc, List.mem_cons_self⟩
  · intro event' hevent
    rw [hfilter] at hevent
    obtain ⟨hmem, htarget'⟩ := List.mem_filter.mp hevent
    obtain ⟨c', hc', hbelongs, hid'⟩ := target_eq_some.mp (of_decide_eq_true htarget')
    rw [eq_of_channelId hc hc' (hid.trans hid'.symm)]
    exact ⟨hmem, hbelongs⟩

theorem journals_of_journalGroup {t t' : Tables} {headers : Payload} {correlationId : String}
    {targetId : Id} {group : List ExtractedProviderEvent} {accepted duplicates : Nat} {now : Date}
    {eventIds outboxIds : Nat → Id} {accepted' duplicates' : Nat}
    (hgroup : (targetId, group) ∈ W.route)
    (h : W.journalGroup t headers correlationId targetId group accepted duplicates now eventIds
      outboxIds = some (t', accepted', duplicates')) :
    W.Journals targetId group t t' (accepted + duplicates) (accepted' + duplicates') := by
  obtain ⟨c, hc, hid, htarget, hevents⟩ := channel_of_group hgroup
  simp only [journalGroup, htarget, Option.bind_eq_bind, Option.bind_eq_some_iff] at h
  obtain ⟨⟨t1, result⟩, hbatch, heq⟩ := h
  cases heq
  have hcounted : result.acceptedEventIds.length + result.duplicateCount = group.length := by
    rw [Journal.accepted_add_duplicates hbatch, groupParams, List.length_map]
  refine ⟨fun account key hkey => hkey.batch hbatch, ?_, ?_, by simp only; omega⟩
  · intro event hevent
    have hstored := Journal.hasEvent_of_batch hbatch (List.mem_map_of_mem hevent)
    rw [← hid]
    exact hstored
  · intro row hrow
    refine (Journal.mem_of_batch hbatch hrow).imp_right ?_
    rintro ⟨input, hinput, id, rfl⟩
    obtain ⟨event, hevent, rfl⟩ := List.mem_map.mp hinput
    obtain ⟨hmem, hbelongs⟩ := hevents event hevent
    exact ⟨event, hmem, c, hc, hbelongs, rfl, rfl, rfl, rfl, rfl, rfl, rfl⟩

/-! ## The invariant -/

/-- The groups that are done are in the journal, and the counts are theirs. -/
structure Done (t : Tables) (groups : List (Id × List ExtractedProviderEvent)) (counted : Nat) :
    Prop where
  stored : ∀ p ∈ groups, ∀ event ∈ p.2, HasEvent t.events p.1 event.providerEventKey
  counted : counted = (groups.map fun p => p.2.length).sum

theorem done_nil (t : Tables) : Done t [] 0 := ⟨fun _ hp => (List.not_mem_nil hp).elim, rfl⟩

theorem Done.mono {t t' : Tables} {groups : List (Id × List ExtractedProviderEvent)} {counted : Nat}
    (h : Done t groups counted)
    (hkept : ∀ account key, HasEvent t.events account key → HasEvent t'.events account key) :
    Done t' groups counted :=
  ⟨fun p hp event hevent => hkept _ _ (h.stored p hp event hevent), h.counted⟩

/-- One more group. -/
theorem Done.append {t t' : Tables} {groups : List (Id × List ExtractedProviderEvent)}
    {counted counted' : Nat} {targetId : Id} {group : List ExtractedProviderEvent}
    (h : Done t groups counted) (hgroup : W.Journals targetId group t t' counted counted') :
    Done t' (groups ++ [(targetId, group)]) counted' := by
  constructor
  · intro p hp event hevent
    rcases List.mem_append.mp hp with hold | hnew
    · exact (h.mono hgroup.kept).stored p hold event hevent
    · cases List.mem_singleton.mp hnew
      exact hgroup.stored event hevent
  · rw [List.map_append, List.sum_append, ← h.counted, hgroup.counted]
    simp

variable (W) in
/-- What is known of a delivery where it stands. -/
def DeliveryOk (t : Tables) : Delivery → Prop
  | .journaling _ _ rest accepted duplicates =>
      ∃ done, done ++ rest = W.route ∧ Done t done (accepted + duplicates)
  | .answered accepted duplicates => Done t W.route (accepted + duplicates)
  | _ => True

theorem DeliveryOk.mono {t t' : Tables} {s : Delivery} (h : W.DeliveryOk t s)
    (hkept : ∀ account key, HasEvent t.events account key → HasEvent t'.events account key) :
    W.DeliveryOk t' s := by
  cases s with
  | journaling headers correlationId rest accepted duplicates =>
      obtain ⟨done, hroute, hdone⟩ := h
      exact ⟨done, hroute, hdone.mono hkept⟩
  | answered accepted duplicates => exact Done.mono h hkept
  | waiting => trivial
  | failed => trivial

variable (W) in
/-- Every row of the journal was there or is that of an event of the body, and
every delivery has journaled its groups in order. -/
structure Ingested (initial : ProviderEvents) (w : World) : Prop where
  origin : ∀ row ∈ w.journal.events.rows, row ∈ initial.rows ∨ W.Files row
  deliveries : ∀ d, W.DeliveryOk w.journal (w.delivery d)

theorem ingested_init (journal : Tables) : W.Ingested journal.events (World.init journal) :=
  ⟨fun _ hrow => Or.inl hrow, fun _ => trivial⟩

/-- A step that moves one delivery. -/
theorem Ingested.update {initial : ProviderEvents} {w w' : World} {d : DeliveryId} {s : Delivery}
    (h : W.Ingested initial w) (hdelivery : w'.delivery = Function.update w.delivery d s)
    (hkept : ∀ account key, HasEvent w.journal.events account key →
      HasEvent w'.journal.events account key)
    (horigin : ∀ row ∈ w'.journal.events.rows, row ∈ w.journal.events.rows ∨ W.Files row)
    (hs : W.DeliveryOk w'.journal s) : W.Ingested initial w' := by
  constructor
  · intro row hrow
    rcases horigin row hrow with hold | hnew
    · exact h.origin row hold
    · exact Or.inr hnew
  · intro d'
    rw [hdelivery]
    by_cases hd : d' = d
    · rw [hd, Function.update_self]
      exact hs
    · rw [Function.update_of_ne hd]
      exact (h.deliveries d').mono hkept

theorem ingested_step {initial : ProviderEvents} {w w' : World} {a : Action}
    (h : W.Ingested initial w) (hs : W.machine.step w a = some w') : W.Ingested initial w' := by
  change W.step w a = some w' at hs
  cases a with
  | receive d headers correlationId =>
      simp only [step] at hs
      split at hs
      · cases hs
        exact h.update rfl (fun _ _ hkey => hkey) (fun _ hrow => Or.inl hrow)
          ⟨[], rfl, done_nil w.journal⟩
      · cases hs
  | journal d now eventIds outboxIds =>
      simp only [step] at hs
      split at hs
      · next headers correlationId targetId group rest accepted duplicates hd =>
          simp only [Option.bind_eq_bind, Option.bind_eq_some_iff] at hs
          obtain ⟨⟨t, accepted', duplicates'⟩, hjournal, heq⟩ := hs
          cases heq
          have hok := h.deliveries d
          rw [hd] at hok
          obtain ⟨done, hroute, hdone⟩ := hok
          have hmem : (targetId, group) ∈ W.route := by
            rw [← hroute]
            exact List.mem_append_right done List.mem_cons_self
          have hgroup := journals_of_journalGroup hmem hjournal
          have hnext : (done ++ [(targetId, group)]) ++ rest = W.route := by
            rw [List.append_assoc, ← hroute]
            rfl
          exact h.update rfl hgroup.kept hgroup.origin
            ⟨done ++ [(targetId, group)], hnext, hdone.append hgroup⟩
      · cases hs
  | answer d =>
      simp only [step] at hs
      split at hs
      · next headers correlationId accepted duplicates hd =>
          cases hs
          have hok := h.deliveries d
          rw [hd] at hok
          obtain ⟨done, hroute, hdone⟩ := hok
          rw [List.append_nil] at hroute
          have hanswer : Done w.journal W.route (accepted + duplicates) := hroute ▸ hdone
          exact h.update rfl (fun _ _ hkey => hkey) (fun _ hrow => Or.inl hrow) hanswer
      · cases hs
  | fail d =>
      simp only [step] at hs
      split at hs
      · cases hs
        exact h.update rfl (fun _ _ hkey => hkey) (fun _ hrow => Or.inl hrow) trivial
      · cases hs

/-! ## Exactly once -/

variable (W) in
/-- The rows of the channels of a workspace are filed under it. -/
def Filed (t : ProviderEvents) : Prop :=
  ∀ row ∈ t.rows, ∀ c ∈ W.channels.rows, row.providerAccountId = c.id →
    row.workspaceId = c.workspaceId ∧ row.provider = providerName c.provider ∧
      row.channelType = c.channelType

variable (W) in
/-- The body is in the journal: each event once under the channel it belongs to,
what is new there under the channel its event belongs to, and the answer counts
the routed events. -/
structure ExactlyOnce (initial : ProviderEvents) (t : ProviderEvents) (accepted duplicates : Nat) :
    Prop where
  once : ∀ event ∈ W.events, ∀ c ∈ W.channels.rows, W.BelongsTo event c →
    t.rows.countP (fun row => EventKey.provider c.id event.providerEventKey ∈ row.keys) = 1
  filed : W.Filed t
  nowhere : ∀ row ∈ t.rows, row ∉ initial.rows → W.Files row
  counted : accepted + duplicates = W.events.countP fun event => W.Routed event

theorem once_of_hasEvent {t : ProviderEvents} {account : Id} {key : String}
    (h : HasEvent t account key) :
    t.rows.countP (fun row => EventKey.provider account key ∈ row.keys) = 1 := by
  obtain ⟨row, hrow⟩ := h
  obtain ⟨hmem, hkey⟩ := Table.find?_eq_some.mp hrow
  have hpos : 0 < t.rows.countP (fun row => EventKey.provider account key ∈ row.keys) :=
    List.countP_pos_iff.mpr ⟨row, hmem, decide_eq_true hkey⟩
  have hle := Table.countP_key_le_one t (EventKey.provider account key)
  omega

/-- Once a delivery is answered, the body is in the journal exactly once, however
many deliveries there were and wherever they failed. -/
theorem exactlyOnce_of_answered {journal : Tables} {as : List Action} {w : World}
    (hfiled : W.Filed journal.events) (hrun : W.machine.run (World.init journal) as = some w)
    {d : DeliveryId} {accepted duplicates : Nat}
    (hanswered : w.delivery d = .answered accepted duplicates) :
    W.ExactlyOnce journal.events w.journal.events accepted duplicates := by
  have hw : W.Ingested journal.events w := Machine.invariant (I := W.Ingested journal.events)
    (fun _ _ _ hI hs => ingested_step hI hs) (ingested_init journal) hrun
  have hdone := hw.deliveries d
  rw [hanswered] at hdone
  constructor
  · intro event hevent c hc hbelongs
    have htarget := target_eq_some.mpr ⟨c, hc, hbelongs, rfl⟩
    obtain ⟨group, hgroup, hmem⟩ := OrderedMap.exists_mem_groupBy hevent htarget
    rw [← route_eq_groupBy] at hgroup
    exact once_of_hasEvent (hdone.stored _ hgroup event hmem)
  · intro row hrow c hc haccount
    rcases hw.origin row hrow with hold | ⟨event, _, c', hc', _, hrowOf⟩
    · exact hfiled row hold c hc haccount
    · rw [eq_of_channelId hc hc' (haccount.symm.trans hrowOf.providerAccountId)]
      exact ⟨hrowOf.workspaceId, hrowOf.provider, hrowOf.channelType⟩
  · intro row hrow hnew
    exact (hw.origin row hrow).resolve_left hnew
  · rw [hdone.counted, route_eq_groupBy, OrderedMap.sum_length_groupBy]
    refine List.countP_congr fun event _ => ?_
    rw [decide_eq_true_iff, routed_iff]

/-! ## A delivery that fails between two channels -/

def exampleChannel (id accountIdentifier : String) (deletedAt : Option Date) : Channel where
  id := id
  workspaceId := "workspace"
  provider := .metaMessenger
  accountIdentifier := accountIdentifier
  deletedAt := deletedAt

/-- A page, another page of its workspace, and one that is deleted. -/
def exampleChannels : Channels where
  rows := [exampleChannel "a" "1" none, exampleChannel "b" "2" none, exampleChannel "c" "3" (some 0)]
  unique := by
    simp [exampleChannel, Channel.keys, Channel.channelType]

/-- A body with events of the three pages, and one of no page. -/
def exampleWebhook : Webhook where
  channels := exampleChannels
  channel := exampleChannel "a" "1" none
  events := [⟨"k1", false, [], none⟩, ⟨"k2", false, [], some "2"⟩, ⟨"k3", false, [], some "3"⟩,
    ⟨"k4", false, [], some "1"⟩, ⟨"k1", true, [], none⟩]
  mem := List.mem_cons_self
  undeleted := rfl

/-- The first delivery fails after the first page, the second is answered. -/
def deliveredAgain : List Action :=
  [.receive 0 [("content-type", .one "application/json")] "first",
    .journal 0 0 (fun n => s!"e{n}") (fun n => s!"o{n}"), .fail 0,
    .receive 1 [] "second", .journal 1 0 (fun _ => "e4") (fun _ => "o4"),
    .journal 1 0 (fun _ => "e5") (fun _ => "o5"), .answer 1]

/-- The theorem at that run: the second delivery accepts the event of the second
page only. -/
theorem exactlyOnce_deliveredAgain :
    ∃ w, exampleWebhook.machine.run (World.init ⟨Table.empty, Table.empty⟩) deliveredAgain =
        some w ∧
      exampleWebhook.ExactlyOnce Table.empty w.journal.events 1 3 := by
  have hlast : (exampleWebhook.machine.run (World.init ⟨Table.empty, Table.empty⟩)
      deliveredAgain).map (fun w => w.delivery 1) = some (.answered 1 3) := by decide
  obtain ⟨w, hw, hanswered⟩ := Option.map_eq_some_iff.mp hlast
  have hfiled : exampleWebhook.Filed (Tables.mk Table.empty Table.empty).events :=
    fun row hrow => by cases hrow
  exact ⟨w, hw, exactlyOnce_of_answered hfiled hw hanswered⟩

end Webhook

end Vynor.Webhooks
