import Vynor.Journal.Invariant

/-!
# The journal is exactly once

What the invariant says of the rows that other transactions see.
-/

namespace Vynor.Journal

open Lib (Table Machine)

/-- The journal is exactly once: each key of a committed call has one provider
event, each provider event has one outbox row, a call has accepted what it
inserted, and a rollback leaves nothing. -/
structure ExactlyOnce (w : World) : Prop where
  oneEvent : ∀ i finished, w.tx i = .committed finished → ∀ call ∈ finished,
    ∀ e ∈ call.params.events, w.committedEvents.countP (fun p =>
      EventKey.provider call.params.providerAccountId e.providerEventKey ∈ p.keys) = 1
  oneOutboxEvent : ∀ p ∈ w.committedEvents, w.committedOutbox.countP (names p.id) = 1
  accepted : ∀ i n call, (w.tx i).finished[n]? = some call →
    call.result.acceptedEventIds = w.insertedBy ⟨i, n⟩
  rolledBack : ∀ i, w.tx i = .rolledBack →
    (∀ t ∈ w.events.rows, t.call.tx ≠ i) ∧ ∀ o ∈ w.outbox.rows, o.call.tx ≠ i

theorem oneEvent_of_journaled {w : World} (hw : Journaled w) {i : TxId} {finished : List Finished}
    (htx : w.tx i = .committed finished) {call : Finished} (hcall : call ∈ finished)
    {e : JournalEventInput} (he : e ∈ call.params.events) :
    w.committedEvents.countP (fun p =>
      EventKey.provider call.params.providerAccountId e.providerEventKey ∈ p.keys) = 1 := by
  have hok := hw.txOk i
  rw [htx] at hok
  obtain ⟨t, ht, hkey, howner⟩ := hok.stored call hcall e he
  have hcommitted : (w.tx t.call.tx).isCommitted = true := by
    rcases howner with heq | hcommitted
    · rw [heq, htx]
      rfl
    · exact hcommitted
  have hpos : 0 < w.committedEvents.countP (fun p =>
      EventKey.provider call.params.providerAccountId e.providerEventKey ∈ p.keys) := by
    rw [List.countP_pos_iff]
    exact ⟨t.row, List.mem_map_of_mem (List.mem_filter.mpr ⟨ht, hcommitted⟩), decide_eq_true hkey⟩
  have hle := Table.countP_key_le_one w.events
    (EventKey.provider call.params.providerAccountId e.providerEventKey)
  have hsub : w.committedEvents.countP (fun p =>
        EventKey.provider call.params.providerAccountId e.providerEventKey ∈ p.keys)
      ≤ w.events.rows.countP (fun t =>
        EventKey.provider call.params.providerAccountId e.providerEventKey ∈ t.row.keys) := by
    rw [World.committedEvents, List.countP_map]
    exact List.filter_sublist.countP_le
  omega

theorem oneOutboxEvent_of_journaled {w : World} (hw : Journaled w) {p : ProviderEvent}
    (hp : p ∈ w.committedEvents) : w.committedOutbox.countP (names p.id) = 1 := by
  obtain ⟨t, hmem, rfl⟩ := List.mem_map.mp hp
  obtain ⟨ht, hcommitted⟩ := List.mem_filter.mp hmem
  have hcounted := hw.counted t ht
  have hstage : (w.tx t.call.tx).stage = .between := by
    cases htx : w.tx t.call.tx with
    | active held finished stage =>
        rw [htx] at hcommitted
        cases hcommitted
    | idle | committed | rolledBack => rfl
  rw [hstage, if_neg (by exact List.not_mem_nil)] at hcounted
  rw [← hcounted, World.committedOutbox, List.countP_map, List.countP_filter]
  refine List.countP_congr fun o ho => ?_
  simp only [Function.comp_apply, Bool.and_eq_true]
  constructor
  · exact fun h => h.1
  · intro hnames
    obtain ⟨t', ht', hnames', htx'⟩ := hw.handed o ho
    refine ⟨hnames, ?_⟩
    rw [← htx', ← eq_of_id ht ht' (eq_of_names hnames hnames')]
    exact hcommitted

/-- The journal is exactly once in every reachable state. -/
theorem journal_exactlyOnce {w : World} {as : List Action}
    (hrun : machine.run World.init as = some w) : ExactlyOnce w := by
  have hw : Journaled w := Machine.invariant (I := Journaled)
    (fun _ _ _ hj hs => journaled_step hj hs) journaled_init hrun
  refine ⟨?_, ?_, ?_, ?_⟩
  · exact fun i finished htx call hcall e he => oneEvent_of_journaled hw htx hcall he
  · exact fun p hp => oneOutboxEvent_of_journaled hw hp
  · exact fun i n call hcall => ((hw.txOk i).accepted n call hcall).symm
  · intro i htx
    have hevents : ∀ t ∈ w.events.rows, t.call.tx ≠ i := by
      intro t ht heq
      have hreached := hw.reached t ht
      rw [heq, htx] at hreached
      exact hreached
    refine ⟨hevents, ?_⟩
    intro o ho heq
    obtain ⟨t, ht, _, htx'⟩ := hw.handed o ho
    exact hevents t ht (htx'.trans heq)

/-! ## Two deliveries of one event -/

/-- A delivery of some keys of one channel. -/
def exampleParams (keys : List String) : JournalProviderEventsParams where
  workspaceId := "workspace"
  providerAccountId := "channel"
  provider := "telegram_bot"
  channelType := .telegram
  events := keys.map fun key => ⟨key, false, [], none⟩
  correlationId := "delivery"

/-- Two deliveries with a key in common, which the second also repeats.  The
second comes to that key when the first has committed. -/
def deliveredTwice : List Action :=
  [.journalProviderEvents 0 (exampleParams ["k1"]) 0, .insert 0 "e1",
    .journalProviderEvents 1 (exampleParams ["k2", "k1", "k2"]) 0, .insert 1 "e2",
    .inserted 0, .createOutboxEvent 0 "o1" 0, .returns 0, .commit 0,
    .insert 1 "e3", .inserted 1, .createOutboxEvent 1 "o2" 0, .returns 1, .commit 1]

/-- The theorem at that run: the second delivery accepts the other key only. -/
theorem exactlyOnce_deliveredTwice :
    ∃ w, machine.run World.init deliveredTwice = some w ∧ ExactlyOnce w ∧
      (w.tx 1).finished.map Finished.result = [⟨["e2"], 2⟩] := by
  have hlast : (machine.run World.init deliveredTwice).map
      (fun w => (w.tx 1).finished.map Finished.result) = some [⟨["e2"], 2⟩] := by decide
  obtain ⟨w, hw, hresult⟩ := Option.map_eq_some_iff.mp hlast
  exact ⟨w, hw, journal_exactlyOnce hw, hresult⟩

end Vynor.Journal
