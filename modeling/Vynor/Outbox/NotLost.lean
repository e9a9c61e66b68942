import Vynor.Outbox.Copies
import Vynor.Outbox.Terminal

/-!
# No outbox event is lost

A completing update is made only after the send resolved, so the queue has
accepted the job of every `COMPLETED` row.  Every statement sets the lease and
the status together: a row has a lease exactly while it is `PROCESSING`, and
lease recovery takes back each row whose lease is past, whoever claimed it and
whatever became of that worker.
-/

namespace Vynor.Outbox

open Lib (Table Machine)
open Queue (Job QueueName outboxJobKey queueFor)

/-- A row has a lease exactly while it is claimed. -/
def OutboxEvent.LeaseMatches (e : OutboxEvent) : Prop :=
  e.claimLeaseExpiresAt.isSome = true ↔ e.status = .processing

theorem leaseMatches_newOutboxEvent (id : Id) (now : Date) (params : CreateOutboxEventParams) :
    (newOutboxEvent id now params).LeaseMatches := by
  constructor <;> nofun

/-- Every statement sets the lease and the status together. -/
theorem RowStep.leaseMatches {w : World} {a : Action} {e e' : OutboxEvent} (h : RowStep w a e e')
    (he : e.LeaseMatches) : e'.LeaseMatches := by
  cases h with
  | same => exact he
  | claim => exact ⟨fun _ => rfl, fun _ => rfl⟩
  | recover | bury | complete | release => constructor <;> nofun
  | fail =>
      constructor
      · nofun
      · intro hstatus
        have hstatus : OutboxEvent.failedStatus _ = .processing := hstatus
        unfold OutboxEvent.failedStatus at hstatus
        split at hstatus <;> cases hstatus

/-! ## Accepted jobs -/

/-- A job that is held is still held when another one is added. -/
theorem HoldsJob.enqueue {jobs : List Job} {queue : QueueName} {key : String}
    (h : HoldsJob jobs queue key) (job : Job) : HoldsJob (enqueue jobs job) queue key := by
  obtain ⟨j, hj, hqueue, hkey⟩ := h
  refine ⟨j, ?_, hqueue, hkey⟩
  unfold Outbox.enqueue
  split
  · exact hj
  · exact List.mem_cons_of_mem _ hj

/-- The queue has accepted the job of this event. -/
def Accepted (w : World) (e : OutboxEvent) : Prop :=
  HoldsJob w.accepted (queueFor e.eventType) (outboxJobKey e.id)

theorem Accepted.sameContent {w : World} {a b : OutboxEvent} (h : Accepted w a)
    (hab : SameContent a b) : Accepted w b := by
  unfold Accepted
  rw [← hab.id, ← hab.eventType]
  exact h

/-- No job that was accepted is forgotten. -/
theorem Accepted.step {w w' : World} {a : Action} {e : OutboxEvent} (h : Accepted w e)
    (hstep : step w a = some w') : Accepted w' e := by
  unfold Accepted
  cases jobStep_of_step hstep with
  | same _ _ hacc | handed _ _ _ hacc =>
      rw [hacc]
      exact h
  | accepted _ _ _ hacc =>
      rw [hacc]
      exact HoldsJob.enqueue h _

/-! ## Sends that resolved -/

@[simp] theorem Poll.next_ne_completing (rest : List OutboxEvent) (event : OutboxEvent)
    (rest' : List OutboxEvent) : Poll.next rest ≠ .completing event rest' := by
  cases rest <;> simp [Poll.next]

/-- A worker that is at its completing update was there before another worker
moved, or before it moved elsewhere. -/
theorem completing_of_setPoll {w : World} {i j : WorkerId} {p : Poll} {event : OutboxEvent}
    {rest : List OutboxEvent} (h : ((w.setPoll j p).worker i).poll = .completing event rest)
    (hp : p ≠ .completing event rest) : (w.worker i).poll = .completing event rest := by
  by_cases hij : i = j
  · subst hij
    rw [World.setPoll_self] at h
    exact absurd h hp
  · rw [World.setPoll_other w p hij] at h
    exact h

/-- A worker comes to its completing update when the queue holds the job. -/
theorem completing_of_step {w w' : World} {a : Action} (h : step w a = some w') {i : WorkerId}
    {event : OutboxEvent} {rest : List OutboxEvent}
    (hpoll : (w'.worker i).poll = .completing event rest) :
    (w.worker i).poll = .completing event rest ∨ Accepted w' event := by
  cases takes_of_step h with
  | @sendResolves j event' rest' hsending hholds =>
      by_cases hij : i = j
      · subst hij
        rw [World.setPoll_self] at hpoll
        cases hpoll
        exact Or.inr hholds
      · rw [World.setPoll_other w _ hij] at hpoll
        exact Or.inl hpoll
  | poll | claimFails | stops _ | releaseFails => exact Or.inl (completing_of_setPoll hpoll nofun)
  | sendRejects _ | completeFails _ | failFails | crash =>
      exact Or.inl (completing_of_setPoll hpoll nofun)
  | hands _ | release _ => exact Or.inl (completing_of_setPoll hpoll nofun)
  | claim _ _ | complete _ | fail _ =>
      exact Or.inl (completing_of_setPoll hpoll (Poll.next_ne_completing _ _ _))
  | @shutdown j =>
      by_cases hij : i = j
      · subst hij
        exact Or.inl (by simpa using hpoll)
      · exact Or.inl (by simpa [hij] using hpoll)
  | create _ | accept _ | recover _ | deadLetter _ | recoveryFails => exact Or.inl hpoll

/-! ## The invariant -/

structure Kept (w : World) : Prop where
  copies : Copies w
  leased : ∀ e ∈ w.events.rows, e.LeaseMatches
  completing : ∀ i event rest, (w.worker i).poll = .completing event rest → Accepted w event
  completed : ∀ e ∈ w.events.rows, e.status = .completed → Accepted w e

theorem kept_init : Kept World.init where
  copies := copies_init
  leased _ h := nomatch h
  completing _ _ _ h := nomatch h
  completed _ h := nomatch h

/-- A row that a worker completes carries the job the worker sent. -/
theorem Kept.accepted_of_complete {w : World} (hw : Kept w) {i : WorkerId} {e event : OutboxEvent}
    {rest : List OutboxEvent} (he : e ∈ w.events.rows)
    (hpoll : (w.worker i).poll = .completing event rest) (hid : e.id = event.id) : Accepted w e := by
  have hmem : event ∈ (w.worker i).poll.events := by
    rw [hpoll]
    exact List.mem_cons_self
  obtain ⟨row, hrow, hsame⟩ := hw.copies.polls i event hmem
  have heq : row = e := OutboxEvent.eq_of_id hrow he (hsame.id.trans hid.symm)
  exact (hw.completing i event rest hpoll).sameContent (heq ▸ hsame.symm)

theorem kept_step {w w' : World} {a : Action} (hw : Kept w) (h : step w a = some w') : Kept w' where
  copies := copies_step hw.copies h
  leased e he := by
    rcases row_of_step h he with ⟨e₀, he₀, hrow⟩ | ⟨id, now, params, _, rfl⟩
    · exact hrow.leaseMatches (hw.leased e₀ he₀)
    · exact leaseMatches_newOutboxEvent id now params
  completing i event rest hpoll := by
    rcases completing_of_step h hpoll with hbefore | haccepted
    · exact (hw.completing i event rest hbefore).step h
    · exact haccepted
  completed e he hstatus := by
    rcases row_of_step h he with ⟨e₀, he₀, hrow⟩ | ⟨id, now, params, _, rfl⟩
    · refine Accepted.step (Accepted.sameContent ?_ hrow.sameContent) h
      cases hrow with
      | same => exact hw.completed e he₀ hstatus
      | claim | recover | bury | release => cases hstatus
      | complete hpoll hid => exact hw.accepted_of_complete he₀ hpoll hid
      | fail =>
          have hstatus : OutboxEvent.failedStatus _ = .completed := hstatus
          unfold OutboxEvent.failedStatus at hstatus
          split at hstatus <;> cases hstatus
    · cases hstatus

/-! ## Recovery -/

/-- Lease recovery takes the row back: its two statements leave it `PENDING` or
`DEAD_LETTER`, without a lease. -/
def TakenBack (w : World) (id : Id) (now : Date) : Prop :=
  ∃ w₁ w₂ e, step w (.recover now) = some w₁ ∧ step w₁ (.deadLetter now) = some w₂ ∧
    w₂.events.find? id = some e ∧ (e.status = .pending ∨ e.status = .deadLetter) ∧
    e.claimLeaseExpiresAt = none

/-- A claimed row whose lease is past is taken back. -/
theorem takenBack_of_orphaned {w : World} {e : OutboxEvent} {now : Date} (he : e ∈ w.events.rows)
    (horphaned : e.orphaned now = true) (hnow : w.now ≤ now) : TakenBack w e.id now := by
  have hfind := find?_recoverExpired now MAX_DISPATCH_ATTEMPTS (find?_of_mem he)
  have hrec : step w (.recover now) = some
      { w with
        events := recoverExpired w.events now MAX_DISPATCH_ATTEMPTS
        now := now
        recovering := w.recovering + 1 } := if_pos hnow
  refine ⟨_, _, _, hrec, if_pos ⟨Nat.succ_pos _, Int.le_refl _⟩,
    find?_deadLetterExpired now MAX_DISPATCH_ATTEMPTS hfind, ?_⟩
  by_cases hleft : e.retryCount < MAX_DISPATCH_ATTEMPTS
  · have hpending : e.recover.orphaned now = false := rfl
    simp only [horphaned, hleft, decide_true, Bool.and_self, if_true, hpending, Bool.false_and,
      Bool.false_eq_true, if_false]
    exact ⟨Or.inl rfl, rfl⟩
  · have hspent : MAX_DISPATCH_ATTEMPTS ≤ e.retryCount := Nat.le_of_not_lt hleft
    simp only [horphaned, hleft, hspent, decide_true, decide_false, Bool.and_false, Bool.and_self,
      Bool.false_eq_true, if_true, if_false]
    exact ⟨Or.inr rfl, rfl⟩

/-! ## No event is lost -/

structure NotLost (w : World) : Prop where
  /-- The queue has accepted the job of a completed row. -/
  accepted : ∀ e ∈ w.events.rows, e.status = .completed → Accepted w e
  /-- A row has a lease exactly while it is `PROCESSING`. -/
  leased : ∀ e ∈ w.events.rows, e.claimLeaseExpiresAt.isSome = true ↔ e.status = .processing
  /-- A claimed row can be taken back once its lease is past. -/
  takenBack : ∀ e ∈ w.events.rows, e.status = .processing → ∃ lease,
    e.claimLeaseExpiresAt = some lease ∧ ∀ now, lease < now → w.now ≤ now → TakenBack w e.id now

/-- In every state that any interleaving of the workers reaches, no event is
lost. -/
theorem notLost_of_run {as : List Action} {w : World} (h : machine.run World.init as = some w) :
    NotLost w := by
  have hw : Kept w := Machine.invariant (M := machine) (I := Kept)
    (fun _ _ _ hI hs => kept_step hI hs) kept_init h
  refine ⟨hw.completed, hw.leased, fun e he hstatus => ?_⟩
  obtain ⟨lease, hlease⟩ := Option.isSome_iff_exists.mp ((hw.leased e he).mpr hstatus)
  refine ⟨lease, hlease, fun now hpast hnow => takenBack_of_orphaned he ?_ hnow⟩
  exact OutboxEvent.orphaned_iff.mpr ⟨hstatus, lease, hlease, hpast⟩

/-- A worker dispatches `e1`, and crashes before the send of `e2` resolves. -/
def crashRun : List Action :=
  [.create "e1" 0 lateEvent, .create "e2" 0 lateEvent, .poll "a", .claim "a" 0 [] ["e1", "e2"],
    .enter "a" true 0, .accept (jobFor (newOutboxEvent "e1" 0 lateEvent) 0), .sendResolves "a",
    .complete "a" 0 0, .enter "a" true 0, .crash "a"]

/-- The theorem at that run: `e1` is done, and `e2` can be taken back. -/
theorem notLost_crashRun :
    ∃ w, machine.run World.init crashRun = some w ∧ NotLost w ∧
      w.events.rows.map (fun e => (e.id, e.status)) = [("e1", .completed), ("e2", .processing)] := by
  have hview : (machine.run World.init crashRun).map
      (fun w => w.events.rows.map (fun e => (e.id, e.status)))
      = some [("e1", .completed), ("e2", .processing)] := by decide +kernel
  obtain ⟨w, hrun, hrows⟩ := Option.map_eq_some_iff.mp hview
  exact ⟨w, hrun, notLost_of_run hrun, hrows⟩

end Vynor.Outbox
