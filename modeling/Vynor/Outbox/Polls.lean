import Vynor.Outbox.Leases

/-!
# Moves of a poll

`PollMove` is the one place that says what a step can do to the poll of a worker.
-/

namespace Vynor.Outbox

open Queue (outboxJobKey queueFor)

/-- The point a worker's poll stands at after a step. -/
inductive PollMove (w : World) (a : Action) (j : WorkerId) : Poll → Prop where
  | stays : PollMove w a j (w.worker j).poll
  | starts : PollMove w a j .claiming
  | ends : PollMove w a j .idle
  | crashes : PollMove w a j .crashed
  | claims {now : Date} {locked picked : List Id} :
      a = .claim j now locked picked →
      PollMove w a j (.next (claimPendingOutboxEvents w.events j now picked).2)
  | releases {rest : List OutboxEvent} :
      (w.worker j).poll = .loop rest → PollMove w a j (.releasing rest)
  | hands {event : OutboxEvent} {rest : List OutboxEvent} {isRunning : Bool} {now : Date} :
      a = .enter j isRunning now → (w.worker j).poll = .loop (event :: rest) →
      PollMove w a j (.sending event rest)
  | resolves {event : OutboxEvent} {rest : List OutboxEvent} :
      (w.worker j).poll = .sending event rest →
      HoldsJob w.accepted (queueFor event.eventType) (outboxJobKey event.id) →
      PollMove w a j (.completing event rest)
  | rejects {event : OutboxEvent} {rest : List OutboxEvent} {errorMessage : String} :
      (w.worker j).poll = .sending event rest ∨ (w.worker j).poll = .completing event rest →
      PollMove w a j (.failing event errorMessage rest)
  | completes {event : OutboxEvent} {rest : List OutboxEvent} :
      (w.worker j).poll = .completing event rest → PollMove w a j (.next rest)
  | fails {event : OutboxEvent} {rest : List OutboxEvent} {errorMessage : String} :
      (w.worker j).poll = .failing event errorMessage rest → PollMove w a j (.next rest)

/-- A step that moves one worker leaves the others where they are. -/
theorem pollMove_setPoll {w : World} {a : Action} {i : WorkerId} {p : Poll}
    (h : PollMove w a i p) (j : WorkerId) : PollMove w a j ((w.setPoll i p).worker j).poll := by
  by_cases hji : j = i
  · subst hji
    rw [World.setPoll_self]
    exact h
  · rw [World.setPoll_other w p hji]
    exact .stays

theorem pollMove_of_step {w w' : World} {a : Action} (h : step w a = some w') (j : WorkerId) :
    PollMove w a j (w'.worker j).poll := by
  cases takes_of_step h with
  | poll => exact pollMove_setPoll .starts j
  | claim _ _ => exact pollMove_setPoll (.claims rfl) j
  | stops hpoll => exact pollMove_setPoll (.releases hpoll) j
  | hands hpoll => exact pollMove_setPoll (.hands rfl hpoll) j
  | sendResolves hpoll hholds => exact pollMove_setPoll (.resolves hpoll hholds) j
  | sendRejects hpoll => exact pollMove_setPoll (.rejects (Or.inl hpoll)) j
  | completeFails hpoll => exact pollMove_setPoll (.rejects (Or.inr hpoll)) j
  | complete hpoll => exact pollMove_setPoll (.completes hpoll) j
  | fail hpoll => exact pollMove_setPoll (.fails hpoll) j
  | claimFails | release _ | releaseFails | failFails => exact pollMove_setPoll .ends j
  | crash => exact pollMove_setPoll .crashes j
  | @shutdown i =>
      by_cases hji : j = i
      · subst hji
        simpa using PollMove.stays
      · simpa [hji] using PollMove.stays
  | create _ | accept _ | recover _ | deadLetter _ | recoveryFails => exact .stays

/-! ## Events that wait in a poll -/

/-- The events of a poll that were not handed to the queue. -/
def Poll.waiting : Poll → List OutboxEvent
  | .loop rest => rest
  | .releasing rest => rest
  | .sending _ rest => rest
  | .completing _ rest => rest
  | .failing _ _ rest => rest
  | _ => []

@[simp] theorem Poll.waiting_next (rest : List OutboxEvent) : (Poll.next rest).waiting = rest := by
  cases rest <;> rfl

theorem Poll.waiting_sublist (p : Poll) : List.Sublist p.waiting p.events := by
  cases p with
  | idle | claiming | loop | releasing | crashed => exact List.Sublist.refl _
  | sending | completing | failing => exact List.sublist_cons_self _ _

/-- An event that waits after a step waited before, or was claimed just now. -/
theorem mem_waiting_of_step {w w' : World} {a : Action} (h : step w a = some w') {j : WorkerId}
    {e : OutboxEvent} (he : e ∈ (w'.worker j).poll.waiting) :
    e ∈ (w.worker j).poll.waiting ∨ ∃ now locked picked, a = .claim j now locked picked ∧
      e ∈ (claimPendingOutboxEvents w.events j now picked).2 := by
  generalize hp : (w'.worker j).poll = p at he
  have hmove := pollMove_of_step h j
  rw [hp] at hmove
  cases hmove with
  | stays => exact Or.inl he
  | starts | ends | crashes => cases he
  | claims ha => exact Or.inr ⟨_, _, _, ha, by rwa [Poll.waiting_next] at he⟩
  | releases hpoll =>
      rw [hpoll]
      exact Or.inl he
  | hands _ hpoll =>
      rw [hpoll]
      exact Or.inl (List.mem_cons_of_mem _ he)
  | resolves hpoll _ =>
      rw [hpoll]
      exact Or.inl he
  | rejects hpoll =>
      rcases hpoll with hpoll | hpoll <;>
        (rw [hpoll]; exact Or.inl he)
  | completes hpoll | fails hpoll =>
      rw [hpoll]
      exact Or.inl (by rwa [Poll.waiting_next] at he)

end Vynor.Outbox
