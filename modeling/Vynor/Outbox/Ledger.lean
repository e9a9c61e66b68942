import Vynor.Outbox.Leases

/-!
# Claims and hand-overs on record

The dispatcher with a record of what happened: the claims that are still
outstanding, and the events that were handed to the queue's send.

A claim is outstanding until its worker has completed, failed or released the
event.  A worker that crashes, or whose poll ends because a statement threw,
leaves its claims outstanding.
-/

namespace Vynor.Outbox

open Lib (Table Machine)

/-- A claim of an event, with the lease the worker was granted. -/
structure Grant where
  worker : WorkerId
  id : Id
  lease : Date
deriving DecidableEq, Repr

structure Ledger where
  world : World
  grants : List Grant
  handed : List Id

/-- The grants of the events a claim returned. -/
def grantsOf (i : WorkerId) (claimed : List OutboxEvent) : List Grant :=
  claimed.filterMap fun e => e.claimLeaseExpiresAt.map fun lease => ⟨i, e.id, lease⟩

/-- The claims a worker does not give up with these events. -/
def keptGrants (grants : List Grant) (i : WorkerId) (events : List OutboxEvent) : List Grant :=
  grants.filter fun g => ¬ (g.worker = i ∧ g.id ∈ events.map OutboxEvent.id)

/-- The claims that are outstanding after an action. -/
def grantsAfter (w : World) (grants : List Grant) : Action → List Grant
  | .claim i now _ picked =>
      grantsOf i (claimPendingOutboxEvents w.events i now picked).2 ++ grants
  | .complete i _ _ =>
      match (w.worker i).poll with
      | .completing event _ => keptGrants grants i [event]
      | _ => grants
  | .fail i =>
      match (w.worker i).poll with
      | .failing event _ _ => keptGrants grants i [event]
      | _ => grants
  | .release i =>
      match (w.worker i).poll with
      | .releasing rest => keptGrants grants i rest
      | _ => grants
  | _ => grants

/-- The event that an action hands to the queue. -/
def handedBy? (w : World) : Action → Option OutboxEvent
  | .enter i isRunning _ =>
      match (w.worker i).poll with
      | .loop (event :: _) =>
          if (w.worker i).isShuttingDown = true ∨ isRunning = false then none else some event
      | _ => none
  | _ => none

/-- The events handed over so far, after an action. -/
def handedAfter (w : World) (handed : List Id) (a : Action) : List Id :=
  match handedBy? w a with
  | some event => event.id :: handed
  | none => handed

namespace Ledger

/-- One action, on record. -/
def step (L : Ledger) (a : Action) : Option Ledger :=
  (Outbox.step L.world a).map fun w =>
    ⟨w, grantsAfter L.world L.grants a, handedAfter L.world L.handed a⟩

/-- The dispatcher with its record. -/
def machine : Machine Ledger Action := ⟨step⟩

@[simp] theorem machine_step (L : Ledger) (a : Action) : machine.step L a = L.step a := rfl

/-- No row, and nothing on record. -/
def init : Ledger := ⟨.init, [], []⟩

theorem of_step {L L' : Ledger} {a : Action} (h : L.step a = some L') :
    Outbox.step L.world a = some L'.world ∧ L'.grants = grantsAfter L.world L.grants a ∧
      L'.handed = handedAfter L.world L.handed a := by
  obtain ⟨w, hw, rfl⟩ := Option.map_eq_some_iff.mp h
  exact ⟨hw, rfl, rfl⟩

end Ledger

theorem mem_grantsOf {i : WorkerId} {claimed : List OutboxEvent} {g : Grant}
    (h : g ∈ grantsOf i claimed) :
    g.worker = i ∧ ∃ e ∈ claimed, e.id = g.id ∧ e.claimLeaseExpiresAt = some g.lease := by
  obtain ⟨e, he, hg⟩ := List.mem_filterMap.mp h
  obtain ⟨lease, hlease, rfl⟩ := Option.map_eq_some_iff.mp hg
  exact ⟨rfl, e, he, rfl, hlease⟩

theorem mem_keptGrants {grants : List Grant} {i : WorkerId} {events : List OutboxEvent} {g : Grant} :
    g ∈ keptGrants grants i events ↔
      g ∈ grants ∧ ¬ (g.worker = i ∧ g.id ∈ events.map OutboxEvent.id) := by
  rw [keptGrants, List.mem_filter, decide_eq_true_eq]

/-- A grant after an action is one of a claim just made, or it was outstanding. -/
theorem mem_grantsAfter {w : World} {grants : List Grant} {a : Action} {g : Grant}
    (h : g ∈ grantsAfter w grants a) :
    g ∈ grants ∨ ∃ i now locked picked, a = .claim i now locked picked ∧
      g ∈ grantsOf i (claimPendingOutboxEvents w.events i now picked).2 := by
  unfold grantsAfter at h
  split at h
  · rcases List.mem_append.mp h with hnew | hold
    · exact Or.inr ⟨_, _, _, _, rfl, hnew⟩
    · exact Or.inl hold
  · split at h
    · exact Or.inl (mem_keptGrants.mp h).1
    · exact Or.inl h
  · split at h
    · exact Or.inl (mem_keptGrants.mp h).1
    · exact Or.inl h
  · split at h
    · exact Or.inl (mem_keptGrants.mp h).1
    · exact Or.inl h
  · exact Or.inl h

end Vynor.Outbox
