import Vynor.Conversations.Commits

/-!
# Reopening a conversation

An ingest reopens the conversation it reads as pending or resolved.  It takes
no lock on that row, so an agent can resolve the conversation between the read
and the commit, and the ingest then writes no status at all.

`ReadsCurrent` is the exact condition: an ingest that read the conversation as
`OPEN` commits while it is `OPEN`.
-/

namespace Vynor.Conversations

open Lib (Table Machine)

/-- The entry is an ingest or an update of the conversation. -/
def Entry.mayWriteStatus (c : Id) : Entry → Bool
  | .ingested c' _ => c' = c
  | .updated c' _ _ => c' = c
  | _ => false

/-- The entry is an ingest. -/
def Entry.isIngest : Entry → Bool
  | .ingested _ _ => true
  | _ => false

/-- The latest committed ingest or update of a conversation is an ingest. -/
def LastIngested (c : Id) (log : List Entry) : Prop :=
  ∃ e, log.find? (Entry.mayWriteStatus c) = some e ∧ e.isIngest = true

/-- The conversation is open after an ingest. -/
def Reopened (c : Id) (w : World) : Prop :=
  LastIngested c w.log → ∀ r, w.db.conversations.find? c = some r →
    r.status = .open ∧ r.resolvedAt = none

/-- A committing ingest that read the conversation as `OPEN` finds it `OPEN`. -/
def ReadsCurrent (c : Id) (w : World) (a : Action) (w' : World) : Prop :=
  match a with
  | .commitIngest i _ _ _ => w'.log ≠ w.log → ∀ tx read replyTo,
      w.call i = .writing tx (some read) replyTo → read.id = c → read.status = .open →
        ∀ r, w.db.conversations.find? c = some r → r.status = .open
  | _ => True

/-! ## When `resolvedAt` is set -/

/-- The update writes `resolvedAt` only with `RESOLVED`. -/
def Change.Consistent (ch : Change) : Prop :=
  ∀ status resolvedAt, ch.status = some (status, resolvedAt) → status ≠ .resolved →
    resolvedAt = none

theorem consistent_of_planUpdate {actor : Actor} {c : Conversation}
    {request : UpdateConversationRequest} {member : Option (Id × String)} {now : Date} {ch : Change}
    (h : planUpdate actor c request member now = some ch) : ch.Consistent := by
  simp only [planUpdate, Option.bind_eq_bind, Option.bind_eq_some_iff] at h
  obtain ⟨⟨assignee, events⟩, _, ⟨written, events'⟩, hstatus, heq⟩ := h
  cases heq
  intro status resolvedAt hwritten hne
  cases hwritten
  simp only [planStatus] at hstatus
  split at hstatus
  · cases hstatus
  · split at hstatus
    · cases hstatus
    · split at hstatus
      · cases hstatus
      · simp only [Option.some.injEq, Prod.mk.injEq] at hstatus
        obtain ⟨⟨rfl, rfl⟩, _⟩ := hstatus
        exact if_neg hne

/-- A call that is about to update was planned so, now or before. -/
theorem updating_of_step {w w' : World} {a : Action} {j : CallId} {ch : Change}
    (h : step w a = some w') (hj : w'.call j = .updating ch) :
    w.call j = .updating ch ∨ ∃ actor c request member now,
      planUpdate actor c request member now = some ch := by
  rcases call_of_step (· = .updating ch) h hj with hold | ⟨_, c, hmoved, rfl⟩
  · exact Or.inl hold
  · cases hmoved with
    | plansUpdate _ hplan => exact Or.inr ⟨_, _, _, _, _, hplan⟩

/-- What the updates under way will write, and what the rows have. -/
structure ResolvedAtFits (c : Id) (w : World) : Prop where
  planned : ∀ i ch, w.call i = .updating ch → ch.Consistent
  stored : ∀ r, w.db.conversations.find? c = some r → r.status ≠ .resolved → r.resolvedAt = none

/-- A row change keeps `resolvedAt` to `RESOLVED`. -/
theorem resolvedAt_rowChange {w : World} {a : Action} {e : Entry} {r r' : Conversation}
    (h : RowChange w a e r r') (hplanned : ∀ i ch, w.call i = .updating ch → ch.Consistent)
    (hr : r.status ≠ .resolved → r.resolvedAt = none) :
    r'.status ≠ .resolved → r'.resolvedAt = none := by
  intro hne
  cases h with
  | other _ => exact hr hne
  | @ingest i _ messageId createdAt assignee tx replyTo read _ hcall hid =>
      by_cases hopen : read.status = .open
      · obtain ⟨hs, ht⟩ := status_counted_of_open hopen tx.createdAt (newMessage tx r.id replyTo).text r
        rw [hs] at hne
        rw [ht]
        exact hr hne
      · exact (status_counted_of_ne hopen _ _ r).2
  | note => exact hr hne
  | send => exact hr hne
  | markRead => exact hr hne
  | @update i ids createdAt ch _ hcall hid =>
      cases hs : ch.status with
      | none =>
          simp only [changed, hs, Option.map_none, Option.getD_none] at hne ⊢
          exact hr hne
      | some p =>
          obtain ⟨status, resolvedAt⟩ := p
          simp only [changed, hs, Option.map_some, Option.getD_some] at hne ⊢
          exact hplanned i ch hcall status resolvedAt hs hne

theorem resolvedAtFits_step {c : Id} {w w' : World} {a : Action} (hf : ResolvedAtFits c w)
    (h : step w a = some w') : ResolvedAtFits c w' where
  planned i ch hi := by
    rcases updating_of_step h hi with hold | ⟨actor, c, request, member, now, hplan⟩
    · exact hf.planned i ch hold
    · exact consistent_of_planUpdate hplan
  stored r' hr' := by
    rcases step_cases h with ⟨hdb, _⟩ | ⟨e, _, hcommit⟩
    · rw [hdb] at hr'
      exact hf.stored r' hr'
    · cases hr : w.db.conversations.find? c with
      | none =>
          obtain ⟨_, _, _, _, _, _, _, _, _, rfl⟩ := hcommit.new_row hr hr'
          exact fun _ => rfl
      | some r =>
          obtain ⟨r1, hr1, hchange⟩ := hcommit.row hr
          rw [hr'] at hr1
          cases hr1
          exact resolvedAt_rowChange hchange hf.planned (hf.stored r hr)

/-! ## One step -/

theorem lastIngested_cons {c : Id} {e : Entry} {log : List Entry}
    (he : e.mayWriteStatus c = false) : LastIngested c (e :: log) ↔ LastIngested c log := by
  simp [LastIngested, he]

/-- The conversation stays open after an ingest, or an ingest reopens it, as
long as no ingest relies on a status that is gone. -/
theorem reopened_of_readsCurrent {c : Id} {w w' : World} {a : Action} (hf : ResolvedAtFits c w)
    (hopen : Reopened c w) (h : step w a = some w') (hcurrent : ReadsCurrent c w a w') :
    Reopened c w' := by
  intro hlast r' hr'
  rcases step_cases h with ⟨hdb, hlog⟩ | ⟨e, hlog, hcommit⟩
  · rw [hdb] at hr'
    rw [hlog] at hlast
    exact hopen hlast r' hr'
  · rw [hlog] at hlast
    cases hr : w.db.conversations.find? c with
    | none =>
        obtain ⟨_, _, _, _, _, _, _, _, _, rfl⟩ := hcommit.new_row hr hr'
        exact ⟨rfl, rfl⟩
    | some r =>
        have hid := Conversation.id_of_find? hr
        obtain ⟨r1, hr1, hchange⟩ := hcommit.row hr
        rw [hr'] at hr1
        cases hr1
        cases hchange with
        | other hne =>
            rw [hid] at hne
            have he : e.mayWriteStatus c = false := by
              cases e <;> simp_all [Entry.mayWriteStatus, Entry.conversationId]
            exact hopen ((lastIngested_cons he).mp hlast) _ hr
        | @ingest i _ messageId createdAt assignee tx replyTo read r hcall hread =>
            by_cases hs : read.status = .open
            · obtain ⟨hstatus, hresolvedAt⟩ :=
                status_counted_of_open hs tx.createdAt (newMessage tx r.id replyTo).text r
              have hnow : r.status = .open :=
                hcurrent (by rw [hlog]; exact List.cons_ne_self _ _) tx read replyTo hcall
                  (hread.trans hid) hs r hr
              rw [hstatus, hresolvedAt]
              exact ⟨hnow, hf.stored r hr (by rw [hnow]; simp)⟩
            · exact status_counted_of_ne hs _ _ r
        | note => exact hopen ((lastIngested_cons rfl).mp hlast) _ hr
        | send => exact hopen ((lastIngested_cons rfl).mp hlast) r hr
        | markRead => exact hopen ((lastIngested_cons rfl).mp hlast) r hr
        | update =>
            -- The update is the latest entry, and it is no ingest.
            obtain ⟨e, he, hingest⟩ := hlast
            rw [List.find?_cons_of_pos (by simp [Entry.mayWriteStatus, hid])] at he
            cases he
            cases hingest

/-- An ingest that leaves the conversation open and wrote no status found it
open. -/
theorem readsCurrent_of_reopened {c : Id} {w w' : World} {a : Action} (h : step w a = some w')
    (hopen : Reopened c w') : ReadsCurrent c w a w' := by
  cases a with
  | commitIngest i conversationId createdAt assignee =>
      intro hlog tx read replyTo hcall hread hs r hr
      have hid := Conversation.id_of_find? hr
      rcases step_cases h with ⟨_, hsame⟩ | ⟨e, hcons, hcommit⟩
      · exact absurd hsame hlog
      · obtain ⟨r', hr', hchange⟩ := hcommit.row hr
        cases hchange with
        | other hne =>
            cases hcommit with
            | ingest hcall' hin =>
                rw [hcall] at hcall'
                cases hcall'
                cases hin.target
                exact absurd (hread.trans hid.symm) hne
        | ingest hcall' _ =>
            rw [hcall] at hcall'
            cases hcall'
            have hlast : LastIngested c w'.log := by
              rw [hcons]
              exact ⟨_, List.find?_cons_of_pos (by simpa [Entry.mayWriteStatus] using hid), rfl⟩
            rw [← (status_counted_of_open hs tx.createdAt _ r).1]
            exact (hopen hlast _ hr').1
  | _ => trivial

/-! ## Along a run -/

/-- What holds between the steps. -/
structure ReopenInv (c : Id) (w : World) : Prop where
  fits : ResolvedAtFits c w
  reopened : Reopened c w

theorem reopenInv_init (c : Id) : ReopenInv c World.init where
  fits := by
    refine ⟨fun i ch hi => ?_, fun r hr => ?_⟩
    · cases hi
    · cases hr
  reopened := fun _ r hr => by cases hr

/-- In every run the conversation is open after each ingest exactly when every
ingest that read it as `OPEN` commits while it is `OPEN`. -/
theorem along_reopened_iff (c : Id) (as : List Action) :
    machine.Along (fun _ _ w' => Reopened c w') World.init as ↔
      machine.Along (ReadsCurrent c) World.init as := by
  refine Machine.along_iff_guarded (I := ReopenInv c) ?_ ?_ (reopenInv_init c)
  · intro w a w' hI h
    exact ⟨readsCurrent_of_reopened h, reopened_of_readsCurrent hI.fits hI.reopened h⟩
  · intro w a w' hI h hcurrent
    exact ⟨resolvedAtFits_step hI.fits h, reopened_of_readsCurrent hI.fits hI.reopened h hcurrent⟩

/-! ## A resolve between the read and the commit -/

/-- A visitor's second message is ingested while an agent resolves the
conversation: the ingest has read it as `OPEN` before the resolve commits. -/
def resolvedBetween : List Action :=
  exampleIngest 0 (exampleRequest "e1" "p1" 1) "c" 2 [] ++
    (exampleIngest 1 (exampleRequest "e2" "p2" 3) "c2" 4 [exampleConversation]).dropLast ++
    [.update 2 ⟨"workspace", "member", "Ann", true, true⟩ "c" { status := some .resolved } none 5,
      .commitUpdate 2 ["u"] 5, .commitIngest 1 "c2" 6 none]

/-- The conversation is resolved although its latest change is a message. -/
theorem not_reopened :
    ¬ ∀ c as w, machine.run World.init as = some w → Reopened c w := by
  intro h
  have hview : (machine.run World.init resolvedBetween).map (fun w =>
      (w.log.head?, (w.db.conversations.find? "c").map Conversation.status))
        = some (some (.ingested "c" "e2"), some .resolved) := by decide
  obtain ⟨w, hw, hpair⟩ := Option.map_eq_some_iff.mp hview
  rw [Prod.mk.injEq] at hpair
  obtain ⟨hlog, hstatus⟩ := hpair
  obtain ⟨r, hr, hs⟩ := Option.map_eq_some_iff.mp hstatus
  have hlast : LastIngested "c" w.log := by
    obtain ⟨rest, hrest⟩ := List.head?_eq_some_iff.mp hlog
    rw [hrest]
    exact ⟨_, List.find?_cons_of_pos rfl, rfl⟩
  have hopen := (h "c" resolvedBetween w hw hlast r hr).1
  rw [hs] at hopen
  cases hopen

end Vynor.Conversations
