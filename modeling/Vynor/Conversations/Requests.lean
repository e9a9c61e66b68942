import Vynor.Conversations.ExactlyOnce

/-!
# The request of an ingest

An ingest keeps its request from its start to its end, and one that has resolved
names a message that is stored.
-/

namespace Vynor.Conversations

open Lib (Table Machine)

/-- The request of an ingest that has not rejected. -/
def Call.request? : Call → Option IngestRequest
  | .waiting request _ => some request
  | .locked request _ => some request
  | .resolving tx => some tx.request
  | .threading tx _ => some tx.request
  | .targeted tx _ => some tx.request
  | .resolved tx _ => some tx.request
  | .writing tx _ _ => some tx.request
  | .violated request => some request
  | .ingested request _ => some request
  | _ => none

theorem request?_of_transaction? {c : Call} {request : IngestRequest} {attempt : Nat}
    (h : c.transaction? = some (request, attempt)) : c.request? = some request := by
  cases c <;> simp_all [Call.transaction?, Call.request?]

/-- A failed attempt that is repeated is for the same request. -/
theorem request?_afterFailure {request r : IngestRequest} {attempt : Nat} {retryable : Bool}
    (h : (afterFailure request attempt retryable).request? = some r) : r = request := by
  unfold afterFailure at h
  split at h
  · exact (Option.some.inj h).symm
  · cases h

/-- A failure leaves a call with the request it had. -/
theorem request?_of_fails {w w' : World} {i : CallId} {retryable : Bool} {r : IngestRequest}
    (h : step w (.fails i retryable) = some w') (hr : (w'.call i).request? = some r) :
    (w.call i).request? = some r := by
  simp only [step, stepFails] at h
  split at h
  next request attempt htx =>
    cases h
    rw [World.unlock_call, World.setCall_self] at hr
    rw [request?_afterFailure hr]
    exact request?_of_transaction? htx
  · split at h
    next request attempt hcall =>
      cases h
      rw [World.setCall_self] at hr
      rw [hcall, request?_afterFailure hr]
      rfl
    · split at h
      · cases h
      · cases h
        rw [World.setCall_self] at hr
        cases hr

theorem request?_of_moved {w : World} {a : Action} {c : Call} {r : IngestRequest} (h : Moved w a c)
    (hr : c.request? = some r) :
    (w.call a.call).request? = some r ∨ (∃ i, a = .ingest i r ∧ w.call i = .idle) ∨
      ∃ i retryable, a = .fails i retryable := by
  cases h with
  | @ingest i request hidle =>
      cases hr
      exact Or.inr (Or.inl ⟨i, rfl, hidle⟩)
  | @finds i request _ hidle _ =>
      cases hr
      exact Or.inr (Or.inl ⟨i, rfl, hidle⟩)
  | retries => exact Or.inr (Or.inr ⟨_, _, rfl⟩)
  | lock hcall | readSender hcall | follows hcall | readTarget hcall | noTarget hcall
    | readConversation hcall | readReplyTarget hcall | commitIngest hcall | violates hcall =>
      left
      simp only [Action.call, hcall]
      exact hr
  | readOpen hcall _ | readThread hcall _ | lookAgain hcall _ =>
      left
      simp only [Action.call, hcall]
      exact hr
  | plansMarkRead | plansSend | plansUpdate | returns | throws => cases hr

/-- A call has its request from before, or starts with it. -/
theorem request?_of_step {w w' : World} {a : Action} {j : CallId} {r : IngestRequest}
    (h : step w a = some w') (hr : (w'.call j).request? = some r) :
    (w.call j).request? = some r ∨ a = .ingest j r ∧ w.call j = .idle := by
  by_cases hj : j = a.call
  · subst hj
    rcases request?_of_moved (step_moved h) hr with hsame | ⟨i, rfl, hidle⟩ | ⟨i, retryable, rfl⟩
    · exact Or.inl hsame
    · exact Or.inr ⟨rfl, hidle⟩
    · exact Or.inl (request?_of_fails h hr)
  · rw [step_call_other h hj] at hr
    exact Or.inl hr

/-- A call that has begun does not become idle. -/
theorem not_idle_of_step {w w' : World} {a : Action} {j : CallId} (h : step w a = some w')
    (hj : w.call j ≠ .idle) : w'.call j ≠ .idle := by
  intro hidle
  rcases call_of_step (· = .idle) h hidle with hold | ⟨_, c, hmoved, rfl⟩
  · exact hj hold
  · cases hmoved

/-- An ingest begins with its request. -/
theorem begins_of_ingest {w w' : World} {j : CallId} {request : IngestRequest}
    (h : step w (.ingest j request) = some w') :
    w'.call j ≠ .idle ∧ ∀ r, (w'.call j).request? = some r → r = request := by
  have hidle : w.call j = .idle := by
    simp only [step] at h
    split at h
    · assumption
    · cases h
  constructor
  · simp only [step, hidle] at h
    cases h
    rw [World.setCall_self]
    unfold afterLookup
    split <;> simp
  · intro r hr
    rcases request?_of_step h hr with hold | ⟨heq, _⟩
    · rw [hidle] at hold
      cases hold
    · injection heq with _ heq
      exact heq.symm

/-- Every ingest that has resolved names a message that is stored. -/
def Named (w : World) : Prop :=
  ∀ j request result, w.call j = .ingested request result →
    ∃ m, w.db.messages.find? request.key = some m

theorem named_step {w w' : World} {a : Action} (hw : Named w) (h : step w a = some w') :
    Named w' := by
  intro j request result hj
  rcases step_ingested h hj with hold | ⟨hdb, hfound⟩ | hins
  · obtain ⟨m, hm⟩ := hw j request result hold
    exact ⟨m, message_kept h hm⟩
  · obtain ⟨m, hm, _⟩ := findDuplicate_eq_some hfound
    exact ⟨m, hdb ▸ hm⟩
  · obtain ⟨m, hm, _⟩ := hins.stored
    exact ⟨m, hm⟩

end Vynor.Conversations
