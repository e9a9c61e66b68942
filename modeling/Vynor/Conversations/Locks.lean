import Vynor.Conversations.Commits

/-!
# The advisory lock of a sender

A transaction of an ingest holds the lock of its channel and sender until it
commits or fails, so no two transactions of one sender are under way together.
-/

namespace Vynor.Conversations

open Lib (Table Machine)

/-- The lock a call holds. -/
def Call.lock? (c : Call) : Option LockKey := c.transaction?.map fun t => t.1.lockKey

/-- What a step does to the locks and to the lock of the call it moves. -/
inductive LockMove (w w' : World) (i : CallId) : Prop where
  | same : w'.locks = w.locks → (w'.call i).lock? = (w.call i).lock? → LockMove w w' i
  | takes {key : LockKey} : key ∉ w.locks → w'.locks = key :: w.locks → (w.call i).lock? = none →
      (w'.call i).lock? = some key → LockMove w w' i
  | gives {key : LockKey} : (w.call i).lock? = some key → w'.locks = w.locks.erase key →
      (w'.call i).lock? = none → LockMove w w' i

@[simp] theorem lock?_afterLookup_waiting (found : Option IngestResult) (request : IngestRequest)
    (attempt : Nat) : (afterLookup found request (.waiting request attempt)).lock? = none := by
  cases found <;> rfl

@[simp] theorem lock?_afterLookup_threw (found : Option IngestResult) (request : IngestRequest) :
    (afterLookup found request .threw).lock? = none := by
  cases found <;> rfl

@[simp] theorem lock?_afterFailure (request : IngestRequest) (attempt : Nat) (retryable : Bool) :
    (afterFailure request attempt retryable).lock? = none := by
  unfold afterFailure
  split <;> rfl

@[simp] theorem lock?_afterThread (tx : IngestTx) (found : List Conversation) :
    (afterThread tx found).lock? = some tx.request.lockKey := by
  cases found with
  | cons c rest => rfl
  | nil =>
      simp only [afterThread]
      split <;> rfl

/-- A call that moves without its lock. -/
theorem lockMove_setCall {w : World} {i : CallId} {c : Call} (h : c.lock? = (w.call i).lock?) :
    LockMove w (w.setCall i c) i :=
  .same rfl (by rw [World.setCall_self]; exact h)

theorem lockMove_of_step {w w' : World} {a : Action} (h : step w a = some w') :
    LockMove w w' a.call := by
  cases a with
  | lock i =>
      simp only [step] at h
      split at h
      next request attempt hcall =>
        split at h
        · cases h
        next hfree =>
          cases h
          refine .takes hfree rfl (by rw [Action.call, hcall]; rfl) ?_
          show ((w.setCall i _).call i).lock? = _
          rw [World.setCall_self]
          rfl
      · cases h
  | commitIngest i conversationId createdAt assignee =>
      simp only [step, stepCommitIngest] at h
      split at h
      next tx read replyTo hcall =>
        split at h
        · cases h
          refine .gives (show (w.call i).lock? = some tx.request.lockKey by rw [hcall]; rfl) rfl ?_
          show ((w.setCall i _).call i).lock? = _
          rw [World.setCall_self]
          rfl
        · cases h
          refine .gives (show (w.call i).lock? = some tx.request.lockKey by rw [hcall]; rfl) rfl ?_
          show ((w.setCall i _).call i).lock? = _
          rw [World.setCall_self]
          rfl
      · cases h
  | fails i retryable =>
      simp only [step, stepFails] at h
      split at h
      next request attempt htx =>
        cases h
        refine .gives (show (w.call i).lock? = some request.lockKey by rw [Call.lock?, htx]; rfl) rfl ?_
        show ((w.setCall i _).call i).lock? = _
        rw [World.setCall_self, lock?_afterFailure]
      next htx =>
        have hnone : (w.call i).lock? = none := by rw [Call.lock?, htx]; rfl
        split at h
        · cases h
          exact lockMove_setCall (by rw [lock?_afterFailure, hnone])
        · split at h
          · cases h
          · cases h
            exact lockMove_setCall hnone.symm
  | commitMarkRead i =>
      simp only [step] at h
      split at h
      next hcall =>
        obtain ⟨db, _, rfl⟩ := Option.map_eq_some_iff.mp h
        exact .same rfl (by simp [Action.call, hcall, Call.lock?, Call.transaction?])
      · cases h
  | commitSend i createdAt =>
      simp only [step] at h
      split at h
      next hcall =>
        obtain ⟨db, _, rfl⟩ := Option.map_eq_some_iff.mp h
        exact .same rfl (by simp [Action.call, hcall, Call.lock?, Call.transaction?])
      · cases h
  | commitUpdate i ids createdAt =>
      simp only [step] at h
      split at h
      next hcall =>
        split at h
        · obtain ⟨db, _, rfl⟩ := Option.map_eq_some_iff.mp h
          exact .same rfl (by simp [Action.call, hcall, Call.lock?, Call.transaction?])
        · cases h
      · cases h
  | send i actor channel conversationId request id now =>
      simp only [step] at h
      split at h
      next hcall =>
        split at h
        · cases h
          exact lockMove_setCall (by rw [hcall]; rfl)
        · split at h
          · cases h
            refine lockMove_setCall ?_
            rw [hcall]
            split <;> rfl
          · cases h
      · cases h
  | update i actor conversationId request member now =>
      simp only [step] at h
      split at h
      next hcall =>
        split at h
        · cases h
          exact lockMove_setCall (by rw [hcall]; rfl)
        · split at h
          · cases h
            exact lockMove_setCall (by rw [hcall]; rfl)
          · cases h
            refine lockMove_setCall ?_
            rw [hcall]
            split <;> rfl
      · cases h
  | markRead i actor conversationId =>
      simp only [step] at h
      split at h
      next hcall =>
        split at h
        · cases h
          exact lockMove_setCall (by rw [hcall]; rfl)
        · cases h
          refine lockMove_setCall ?_
          rw [hcall]
          split <;> rfl
      · cases h
  | ingest i request =>
      simp only [step] at h
      split at h
      next hcall =>
        cases h
        exact lockMove_setCall (by rw [hcall, lock?_afterLookup_waiting]; rfl)
      · cases h
  | lookAgain i =>
      simp only [step] at h
      split at h
      next hcall =>
        cases h
        exact lockMove_setCall (by rw [hcall, lock?_afterLookup_threw]; rfl)
      · cases h
  | readThread i found =>
      simp only [step] at h
      split at h
      next hcall =>
        split at h
        · cases h
        · split at h
          · cases h
            exact lockMove_setCall (by rw [hcall, lock?_afterThread]; rfl)
          · cases h
      · cases h
  | readOpen i found =>
      simp only [step] at h
      split at h
      next hcall =>
        split at h
        next =>
          cases h
          exact lockMove_setCall (by rw [hcall]; rfl)
        next => cases h
      next => cases h
  | readTarget i =>
      simp only [step] at h
      split at h
      next hcall =>
        split at h
        next =>
          cases h
          exact lockMove_setCall (by rw [hcall]; rfl)
        next =>
          cases h
          exact lockMove_setCall (by rw [hcall]; rfl)
      next => cases h
  | readSender i now contactId identityId =>
      simp only [step] at h
      split at h
      next hcall =>
        cases h
        exact lockMove_setCall (by rw [hcall]; rfl)
      next => cases h
  | readConversation i =>
      simp only [step] at h
      split at h
      next hcall =>
        cases h
        exact lockMove_setCall (by rw [hcall]; rfl)
      next => cases h
  | readReplyTarget i =>
      simp only [step] at h
      split at h
      next hcall =>
        cases h
        exact lockMove_setCall (by rw [hcall]; rfl)
      next => cases h

/-! ## At most one transaction of a sender -/

/-- Every transaction holds its lock, and no two hold one. -/
structure Exclusive (w : World) : Prop where
  held : ∀ i key, (w.call i).lock? = some key → key ∈ w.locks
  alone : ∀ i j key, (w.call i).lock? = some key → (w.call j).lock? = some key → i = j

theorem exclusive_step {w w' : World} {a : Action} (hw : Exclusive w) (h : step w a = some w') :
    Exclusive w' := by
  have hother : ∀ j, j ≠ a.call → (w'.call j).lock? = (w.call j).lock? := fun j hj => by
    rw [step_call_other h hj]
  cases lockMove_of_step h with
  | same hlocks hcall =>
      have hsame : ∀ j, (w'.call j).lock? = (w.call j).lock? := by
        intro j
        by_cases hj : j = a.call
        · rw [hj]
          exact hcall
        · exact hother j hj
      constructor
      · intro i key hi
        rw [hlocks]
        exact hw.held i key (hsame i ▸ hi)
      · intro i j key hi hj
        exact hw.alone i j key (hsame i ▸ hi) (hsame j ▸ hj)
  | @takes key hfree hlocks hbefore hafter =>
      -- Whoever else holds a lock held it before, and it was not this one.
      have hold : ∀ j key', j ≠ a.call → (w'.call j).lock? = some key' → key' ∈ w.locks :=
        fun j key' hj hkey => hw.held j key' (hother j hj ▸ hkey)
      constructor
      · intro i key' hi
        rw [hlocks]
        by_cases hic : i = a.call
        · rw [hic, hafter] at hi
          cases hi
          exact List.mem_cons_self
        · exact List.mem_cons_of_mem _ (hold i key' hic hi)
      · intro i j key' hi hj
        by_cases hic : i = a.call
        · by_cases hjc : j = a.call
          · rw [hic, hjc]
          · rw [hic, hafter] at hi
            cases hi
            exact absurd (hold j _ hjc hj) hfree
        · by_cases hjc : j = a.call
          · rw [hjc, hafter] at hj
            cases hj
            exact absurd (hold i _ hic hi) hfree
          · exact hw.alone i j key' (hother i hic ▸ hi) (hother j hjc ▸ hj)
  | @gives key hbefore hlocks hafter =>
      have hne : ∀ j key', (w'.call j).lock? = some key' → j ≠ a.call := by
        rintro j key' hj rfl
        rw [hafter] at hj
        cases hj
      constructor
      · intro i key' hi
        have hic := hne i key' hi
        have hi := hother i hic ▸ hi
        rw [hlocks]
        refine (List.mem_erase_of_ne ?_).mpr (hw.held i key' hi)
        rintro rfl
        exact hic (hw.alone i a.call _ hi hbefore)
      · intro i j key' hi hj
        exact hw.alone i j key' (hother i (hne i key' hi) ▸ hi) (hother j (hne j key' hj) ▸ hj)

/-- No call is under way. -/
def World.Idle (w : World) : Prop := ∀ i, w.call i = .idle

theorem exclusive_of_idle {w : World} (h : w.Idle) : Exclusive w where
  held i key hi := by
    rw [h i] at hi
    cases hi
  alone i j key hi := by
    rw [h i] at hi
    cases hi

end Vynor.Conversations
