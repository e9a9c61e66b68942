import Vynor.Journal.Batch
import Vynor.Lib.Machine
import Vynor.Polling.Adapter
import Vynor.Schema

/-!
# Polling one channel

Any number of runs of `pollChannel` on one channel, in any workers.  A run is
cut at its awaits, and `Stage` names the points where it can stand.

* `polling`: the lease statement granted the channel, and `pollInbound` is
  awaited.
* `saving`: the provider has answered, and the transaction is awaited that
  journals the events and saves the cursor.  `seen` is the provider as the call
  found it.
* `recording`: the transaction has committed, and `recordSuccess` is awaited.
* `releasing`: something threw, and the update of the `catch` is awaited.

Statements and the transaction are atomic, and each can fail.  Between two
awaits any time can pass.  `lease` of a poll is the lease it was granted and
has not given up.
-/

namespace Vynor.Polling

open Lib (Machine)
open Journal (JournalProviderEventsParams journalProviderEventsInTransaction)

/-- What a poll asks, and how its cursors are ordered. -/
structure Provider (σ ε : Type) where
  provider : String
  channelType : ChannelType
  /-- `pollInbound`, with the provider after the call. -/
  pollInbound : σ → Option Cursor → σ × PollResult
  /-- What happens at the provider between polls. -/
  happens : σ → ε → Option σ
  /-- How far a saved cursor has come: `lastUid` or `offset`. -/
  position : Option Cursor → Option Int
  /-- One poll does not go back. -/
  advances : ∀ s c n, position c = some n →
    ∃ n', position (some (pollInbound s c).2.cursor) = some n' ∧ n ≤ n'

/-- The row of the channel, with its polling columns. -/
structure Channel where
  account : ProviderAccount
  syncState : Option Cursor
  syncLeaseExpiresAt : Option Date := none
  lastHealthCheckAt : Option Date := none
deriving DecidableEq, Repr

/-- The lease in milliseconds (`LEASE_SECONDS = 120`). -/
def LEASE_MS : Date := 120 * 1000

/-- The `WHERE` of the lease statement. -/
def Channel.isFree (c : Channel) (now : Date) : Bool :=
  c.account.deletedAt.isNone &&
    match c.syncLeaseExpiresAt with
    | none => true
    | some expiresAt => expiresAt < now

/-- The `SET` of the lease statement. -/
def Channel.leased (c : Channel) (now : Date) : Channel :=
  { c with syncLeaseExpiresAt := some (now + LEASE_MS) }

/-- The update in the transaction of a poll. -/
def Channel.saved (c : Channel) (cursor : Cursor) (now : Date) : Channel :=
  { c with
    syncState := some cursor
    syncLeaseExpiresAt := none
    lastHealthCheckAt := some now }

/-- The update in the `catch` of a poll. -/
def Channel.released (c : Channel) : Channel := { c with syncLeaseExpiresAt := none }

abbrev PollId := Nat

/-- Where a run of `pollChannel` stands. -/
inductive Stage (σ : Type) where
  | idle
  | polling (cursor : Option Cursor)
  | saving (cursor : Option Cursor) (seen : σ)
  | recording
  | releasing
  | ended

structure Poll (σ : Type) where
  stage : Stage σ := .idle
  lease : Option Date := none

/-- The channel, the clock of the database, the journal, the provider and the
polls. -/
structure World (σ : Type) where
  channel : Channel
  now : Date
  journal : Journal.Tables
  source : σ
  poll : PollId → Poll σ

variable {σ ε : Type}

/-- The same world with one poll at another point. -/
def World.setPoll (w : World σ) (p : PollId) (x : Poll σ) : World σ :=
  { w with poll := Function.update w.poll p x }

/-- The same world with one poll at another stage. -/
def World.setStage (w : World σ) (p : PollId) (stage : Stage σ) : World σ :=
  w.setPoll p { w.poll p with stage := stage }

/-- What can happen next, with the times and ids that are taken. -/
inductive Action (ε : Type) where
  | provider (event : ε)
  | tick (now : Date)
  | lease (p : PollId) (now : Date)
  | fetch (p : PollId)
  | fetchFails (p : PollId) (reached : Bool)
  | save (p : PollId) (now : Date) (eventIds outboxIds : Nat → Id)
  | saveFails (p : PollId)
  | record (p : PollId)
  | recordFails (p : PollId)
  | release (p : PollId)
  | releaseFails (p : PollId)
  | crash (p : PollId)

/-- What a poll journals. -/
def journalParams (P : Provider σ ε) (account : ProviderAccount) (now : Date)
    (result : PollResult) : JournalProviderEventsParams where
  workspaceId := account.workspaceId
  providerAccountId := account.id
  provider := P.provider
  channelType := P.channelType
  correlationId := "poll_" ++ account.id ++ "_" ++ toString now
  events := result.events

/-- The lease statement. -/
def stepLease (w : World σ) (p : PollId) (now : Date) : Option (World σ) :=
  match (w.poll p).stage with
  | .idle =>
      if w.now ≤ now then
        if w.channel.isFree now then
          some { w.setPoll p ⟨.polling w.channel.syncState, some (now + LEASE_MS)⟩ with
            channel := w.channel.leased now
            now := now }
        else some { w.setStage p .ended with now := now }
      else none
  | _ => none

/-- The transaction that journals the events and saves the cursor. -/
def stepSave (P : Provider σ ε) (w : World σ) (p : PollId) (now : Date)
    (eventIds outboxIds : Nat → Id) : Option (World σ) :=
  match (w.poll p).stage with
  | .saving cursor seen =>
      let result := (P.pollInbound seen cursor).2
      (journalProviderEventsInTransaction w.journal (journalParams P w.channel.account now result)
        now eventIds outboxIds).map fun journaled =>
          { w.setPoll p ⟨.recording, none⟩ with
            journal := journaled.1
            channel := w.channel.saved result.cursor now }
  | _ => none

/-- One action. -/
def step (P : Provider σ ε) (w : World σ) : Action ε → Option (World σ)
  | .provider event => (P.happens w.source event).map fun source => { w with source := source }
  | .tick now => if w.now ≤ now then some { w with now := now } else none
  | .lease p now => stepLease w p now
  | .fetch p =>
      match (w.poll p).stage with
      | .polling cursor =>
          some { w.setStage p (.saving cursor w.source) with
            source := (P.pollInbound w.source cursor).1 }
      | _ => none
  | .fetchFails p reached =>
      match (w.poll p).stage with
      | .polling cursor =>
          some { w.setStage p .releasing with
            source := if reached then (P.pollInbound w.source cursor).1 else w.source }
      | _ => none
  | .save p now eventIds outboxIds => stepSave P w p now eventIds outboxIds
  | .saveFails p =>
      match (w.poll p).stage with
      | .saving _ _ => some (w.setStage p .releasing)
      | _ => none
  | .record p =>
      match (w.poll p).stage with
      | .recording => some (w.setStage p .ended)
      | _ => none
  | .recordFails p =>
      match (w.poll p).stage with
      | .recording => some (w.setStage p .releasing)
      | _ => none
  | .release p =>
      match (w.poll p).stage with
      | .releasing =>
          some { w.setPoll p ⟨.ended, none⟩ with channel := w.channel.released }
      | _ => none
  | .releaseFails p =>
      match (w.poll p).stage with
      | .releasing => some (w.setStage p .ended)
      | _ => none
  | .crash p => some (w.setStage p .ended)

/-- Polling as a machine. -/
def machine (P : Provider σ ε) : Machine (World σ) (Action ε) := ⟨step P⟩

@[simp] theorem machine_step (P : Provider σ ε) (w : World σ) (a : Action ε) :
    (machine P).step w a = step P w a := rfl

/-- No poll has begun. -/
def World.Fresh (w : World σ) : Prop := ∀ p, w.poll p = {}

section SetPoll

variable (w : World σ) (p : PollId)

@[simp] theorem World.setPoll_self (x : Poll σ) : (w.setPoll p x).poll p = x := by
  simp [World.setPoll]

theorem World.setPoll_other {q : PollId} (x : Poll σ) (h : q ≠ p) :
    (w.setPoll p x).poll q = w.poll q := by
  simp [World.setPoll, h]

/-- A change of stage keeps every lease. -/
@[simp] theorem World.setStage_lease (stage : Stage σ) (q : PollId) :
    ((w.setStage p stage).poll q).lease = (w.poll q).lease := by
  by_cases h : q = p
  · rw [h, World.setStage, World.setPoll_self]
  · rw [World.setStage, World.setPoll_other w p _ h]

end SetPoll

/-! ## What a step does to the channel -/

/-- The poll that clears the lease of the channel in an action. -/
def Action.clearer? : Action ε → Option PollId
  | .save p _ _ _ => some p
  | .release p => some p
  | _ => none

/-- The poll that writes the lease of the channel in an action. -/
def Action.writer? : Action ε → Option PollId
  | .lease p _ => some p
  | a => a.clearer?

/-- The ways an action changes the channel and the leases of the polls. -/
inductive ChannelStep (P : Provider σ ε) (w w' : World σ) : Action ε → Prop where
  | same {a : Action ε} : a.clearer? = none → w'.channel = w.channel → w.now ≤ w'.now →
      (∀ q, (w'.poll q).lease = (w.poll q).lease) → ChannelStep P w w' a
  | lease {p : PollId} {now : Date} : w.now ≤ now → w.channel.isFree now = true →
      w' = { w.setPoll p ⟨.polling w.channel.syncState, some (now + LEASE_MS)⟩ with
        channel := w.channel.leased now, now := now } → ChannelStep P w w' (.lease p now)
  | save {p : PollId} {now : Date} {eventIds outboxIds : Nat → Id} {cursor : Option Cursor}
      {seen : σ} : (w.poll p).stage = .saving cursor seen →
      w'.channel = w.channel.saved (P.pollInbound seen cursor).2.cursor now → w'.now = w.now →
      w'.poll = (w.setPoll p ⟨.recording, none⟩).poll →
      ChannelStep P w w' (.save p now eventIds outboxIds)
  | release {p : PollId} : (w.poll p).stage = .releasing → w'.channel = w.channel.released →
      w'.now = w.now → w'.poll = (w.setPoll p ⟨.ended, none⟩).poll →
      ChannelStep P w w' (.release p)

theorem channel_step {P : Provider σ ε} {w w' : World σ} {a : Action ε}
    (h : step P w a = some w') : ChannelStep P w w' a := by
  cases a with
  | provider event =>
      obtain ⟨source, _, rfl⟩ := Option.map_eq_some_iff.mp h
      exact .same rfl rfl (Int.le_refl _) fun _ => rfl
  | tick now =>
      simp only [step] at h
      split at h
      next hnow =>
        cases h
        exact .same rfl rfl hnow fun _ => rfl
      · cases h
  | lease p now =>
      simp only [step, stepLease] at h
      split at h
      · split at h
        next hnow =>
          split at h
          next hfree =>
            cases h
            exact .lease hnow hfree rfl
          · cases h
            exact .same rfl rfl hnow fun q => World.setStage_lease w p .ended q
        · cases h
      · cases h
  | fetch p =>
      simp only [step] at h
      split at h
      next cursor _ =>
        cases h
        exact .same rfl rfl (Int.le_refl _) fun q => World.setStage_lease w p (.saving cursor w.source) q
      · cases h
  | save p now eventIds outboxIds =>
      simp only [step, stepSave] at h
      split at h
      next cursor seen hstage =>
        obtain ⟨journaled, _, rfl⟩ := Option.map_eq_some_iff.mp h
        exact .save hstage rfl rfl rfl
      · cases h
  | release p =>
      simp only [step] at h
      split at h
      next hstage =>
        cases h
        exact .release hstage rfl rfl rfl
      · cases h
  | crash p =>
      cases h
      exact .same rfl rfl (Int.le_refl _) fun q => World.setStage_lease w p .ended q
  | fetchFails p _ =>
      simp only [step] at h
      split at h
      · cases h
        exact .same rfl rfl (Int.le_refl _) fun q => World.setStage_lease w p .releasing q
      · cases h
  | saveFails p | record p | recordFails p | releaseFails p =>
      simp only [step] at h
      split at h
      · cases h
        exact .same rfl rfl (Int.le_refl _) fun q => World.setStage_lease w p _ q
      · cases h

end Vynor.Polling
