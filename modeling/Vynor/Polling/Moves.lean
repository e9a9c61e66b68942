import Vynor.Polling.System

/-!
# What a step does to cursors and events

A cursor is *held* where it may still be read or saved: the channel carries it,
or a poll was given it and has not ended.  A step brings a new cursor in only
where a poll saves one, and takes no event away.
-/

namespace Vynor.Polling

open Journal (HasEvent hasEvent_of_batch)

variable {σ ε : Type}

/-- The channel carries the cursor, or a poll under way was given it. -/
inductive World.HoldsCursor (w : World σ) : Option Cursor → Prop where
  | saved : w.HoldsCursor w.channel.syncState
  | polling {p : PollId} {cursor : Option Cursor} :
      (w.poll p).stage = .polling cursor → w.HoldsCursor cursor
  | saving {p : PollId} {cursor : Option Cursor} {seen : σ} :
      (w.poll p).stage = .saving cursor seen → w.HoldsCursor cursor

/-- The ways an action changes the provider, the cursors and the journal. -/
inductive Move (P : Provider σ ε) (w w' : World σ) : Action ε → Prop where
  | provider {event : ε} : P.happens w.source event = some w'.source →
      w'.channel = w.channel → w'.journal = w.journal → w'.poll = w.poll →
      Move P w w' (.provider event)
  | quiet {a : Action ε} : w'.source = w.source → w'.channel.account = w.channel.account →
      w'.channel.syncState = w.channel.syncState → w'.journal = w.journal →
      (∀ q c, (w'.poll q).stage = .polling c → w.HoldsCursor c) →
      (∀ q c seen, (w'.poll q).stage = .saving c seen → (w.poll q).stage = .saving c seen) →
      Move P w w' a
  | asked {a : Action ε} {cursor : Option Cursor} : w.HoldsCursor cursor →
      w'.source = (P.pollInbound w.source cursor).1 → w'.channel = w.channel →
      w'.journal = w.journal →
      (∀ q c, (w'.poll q).stage = .polling c → (w.poll q).stage = .polling c) →
      (∀ q c seen, (w'.poll q).stage = .saving c seen →
        (w.poll q).stage = .saving c seen ∨ c = cursor ∧ seen = w.source) →
      Move P w w' a
  | save {p : PollId} {now : Date} {eventIds outboxIds : Nat → Id} {cursor : Option Cursor}
      {seen : σ} {result : Journal.JournalProviderEventsResult} :
      (w.poll p).stage = .saving cursor seen → w'.source = w.source →
      w'.channel = w.channel.saved (P.pollInbound seen cursor).2.cursor now →
      Journal.journalProviderEventsInTransaction w.journal
        (journalParams P w.channel.account now (P.pollInbound seen cursor).2) now eventIds
        outboxIds = some (w'.journal, result) →
      (∀ q c, (w'.poll q).stage = .polling c → (w.poll q).stage = .polling c) →
      (∀ q c seen, (w'.poll q).stage = .saving c seen → (w.poll q).stage = .saving c seen) →
      Move P w w' (.save p now eventIds outboxIds)

/-- A stage in which a poll has no cursor. -/
def Stage.isClosed : Stage σ → Bool
  | .polling _ => false
  | .saving _ _ => false
  | _ => true

section Closed

variable {w : World σ} {p q : PollId} {x : Poll σ} {c : Option Cursor} {seen : σ}

/-- A poll that goes to a stage without a cursor leaves the stages of the others. -/
theorem polling_of_closed (hx : x.stage.isClosed = true)
    (h : ((w.setPoll p x).poll q).stage = .polling c) : (w.poll q).stage = .polling c := by
  by_cases hq : q = p
  · rw [hq, World.setPoll_self] at h
    rw [h] at hx
    cases hx
  · rwa [World.setPoll_other w p x hq] at h

theorem saving_of_closed (hx : x.stage.isClosed = true)
    (h : ((w.setPoll p x).poll q).stage = .saving c seen) : (w.poll q).stage = .saving c seen := by
  by_cases hq : q = p
  · rw [hq, World.setPoll_self] at h
    rw [h] at hx
    cases hx
  · rwa [World.setPoll_other w p x hq] at h

/-- A step that only takes a poll to such a stage. -/
theorem Move.close {P : Provider σ ε} {w' : World σ} {a : Action ε} (hx : x.stage.isClosed = true)
    (hsource : w'.source = w.source) (haccount : w'.channel.account = w.channel.account)
    (hcursor : w'.channel.syncState = w.channel.syncState) (hjournal : w'.journal = w.journal)
    (hpoll : w'.poll = (w.setPoll p x).poll) : Move P w w' a := by
  refine .quiet hsource haccount hcursor hjournal ?_ ?_
  · intro q c hstage
    rw [hpoll] at hstage
    exact .polling (polling_of_closed hx hstage)
  · intro q c seen hstage
    rw [hpoll] at hstage
    exact saving_of_closed hx hstage

end Closed

theorem move_of_step {P : Provider σ ε} {w w' : World σ} {a : Action ε}
    (h : step P w a = some w') : Move P w w' a := by
  cases a with
  | provider event =>
      obtain ⟨source, hsource, rfl⟩ := Option.map_eq_some_iff.mp h
      exact .provider hsource rfl rfl rfl
  | tick now =>
      simp only [step] at h
      split at h
      · cases h
        exact .quiet rfl rfl rfl rfl (fun _ _ hs => .polling hs) fun _ _ _ hs => hs
      · cases h
  | lease p now =>
      simp only [step, stepLease] at h
      split at h
      · split at h
        · split at h
          · cases h
            refine .quiet rfl rfl rfl rfl ?_ ?_
            · intro q c hs
              by_cases hq : q = p
              · rw [hq, World.setPoll_self, Stage.polling.injEq] at hs
                rw [← hs]
                exact .saved
              · rw [World.setPoll_other w p _ hq] at hs
                exact .polling hs
            · intro q c seen hs
              by_cases hq : q = p
              · rw [hq, World.setPoll_self] at hs
                cases hs
              · rwa [World.setPoll_other w p _ hq] at hs
          · cases h
            exact .close rfl rfl rfl rfl rfl rfl
        · cases h
      · cases h
  | fetch p =>
      simp only [step] at h
      split at h
      next cursor hstage =>
        cases h
        refine .asked (.polling hstage) rfl rfl rfl ?_ ?_
        · intro q c hs
          by_cases hq : q = p
          · rw [hq, World.setStage, World.setPoll_self] at hs
            cases hs
          · rwa [World.setStage, World.setPoll_other w p _ hq] at hs
        · intro q c seen hs
          by_cases hq : q = p
          · rw [hq, World.setStage, World.setPoll_self, Stage.saving.injEq] at hs
            exact Or.inr ⟨hs.1.symm, hs.2.symm⟩
          · rw [World.setStage, World.setPoll_other w p _ hq] at hs
            exact Or.inl hs
      · cases h
  | fetchFails p reached =>
      simp only [step] at h
      split at h
      next cursor hstage =>
        cases h
        cases reached with
        | false => exact .close rfl rfl rfl rfl rfl rfl
        | true =>
            refine .asked (.polling hstage) rfl rfl rfl ?_ ?_
            · intro q c hs
              exact polling_of_closed rfl hs
            · intro q c seen hs
              exact Or.inl (saving_of_closed rfl hs)
      · cases h
  | save p now eventIds outboxIds =>
      simp only [step, stepSave] at h
      split at h
      next cursor seen hstage =>
        obtain ⟨⟨journal, result⟩, hjournal, rfl⟩ := Option.map_eq_some_iff.mp h
        refine .save hstage rfl rfl hjournal ?_ ?_
        · intro q c hs
          exact polling_of_closed rfl hs
        · intro q c seen hs
          exact saving_of_closed rfl hs
      · cases h
  | crash p =>
      cases h
      exact .close rfl rfl rfl rfl rfl rfl
  | saveFails p | record p | recordFails p | release p | releaseFails p =>
      simp only [step] at h
      split at h
      · cases h
        exact .close rfl rfl rfl rfl rfl rfl
      · cases h

section Step

variable {P : Provider σ ε} {w w' : World σ} {a : Action ε}

/-- The account of the channel is not written. -/
theorem account_of_step (h : step P w a = some w') : w'.channel.account = w.channel.account := by
  cases move_of_step h with
  | provider _ hchannel _ _ => rw [hchannel]
  | quiet _ haccount _ _ _ _ => exact haccount
  | asked _ _ hchannel _ _ _ => rw [hchannel]
  | save _ _ hchannel _ _ _ => rw [hchannel]; rfl

/-- Events stay in the journal. -/
theorem hasEvent_of_step (h : step P w a = some w') {account : Id} {key : String}
    (hkey : HasEvent w.journal.events account key) : HasEvent w'.journal.events account key := by
  cases move_of_step h with
  | provider _ _ hjournal _ => rwa [hjournal]
  | quiet _ _ _ hjournal _ _ => rwa [hjournal]
  | asked _ _ _ hjournal _ _ => rwa [hjournal]
  | save _ _ _ hjournal _ _ => exact hkey.batch hjournal

/-- A poll that saves has journaled its events. -/
theorem hasEvent_of_save {p : PollId} {now : Date} {eventIds outboxIds : Nat → Id}
    (h : step P w (.save p now eventIds outboxIds) = some w') {cursor : Option Cursor} {seen : σ}
    (hstage : (w.poll p).stage = .saving cursor seen) {e : Journal.JournalEventInput}
    (he : e ∈ (P.pollInbound seen cursor).2.events) :
    HasEvent w'.journal.events w.channel.account.id e.providerEventKey := by
  simp only [step, stepSave, hstage] at h
  obtain ⟨⟨journal, result⟩, hjournal, rfl⟩ := Option.map_eq_some_iff.mp h
  exact hasEvent_of_batch hjournal he

/-- A cursor that is held was held before, or it is the one a poll saves. -/
theorem holdsCursor_of_step (h : step P w a = some w') {c : Option Cursor}
    (hc : w'.HoldsCursor c) :
    w.HoldsCursor c ∨ ∃ p now eventIds outboxIds cursor seen,
      a = .save p now eventIds outboxIds ∧ (w.poll p).stage = .saving cursor seen ∧
      c = some (P.pollInbound seen cursor).2.cursor := by
  cases move_of_step h with
  | provider _ hchannel _ hpoll =>
      left
      cases hc with
      | saved => rw [hchannel]; exact .saved
      | polling hs => rw [hpoll] at hs; exact .polling hs
      | saving hs => rw [hpoll] at hs; exact .saving hs
  | quiet _ _ hcursor _ hpolling hsaving =>
      left
      cases hc with
      | saved => rw [hcursor]; exact .saved
      | polling hs => exact hpolling _ _ hs
      | saving hs => exact .saving (hsaving _ _ _ hs)
  | asked hcursor _ hchannel _ hpolling hsaving =>
      left
      cases hc with
      | saved => rw [hchannel]; exact .saved
      | polling hs => exact .polling (hpolling _ _ hs)
      | saving hs =>
          rcases hsaving _ _ _ hs with hold | ⟨rfl, _⟩
          · exact .saving hold
          · exact hcursor
  | save hstage _ hchannel _ hpolling hsaving =>
      cases hc with
      | saved =>
          right
          refine ⟨_, _, _, _, _, _, rfl, hstage, ?_⟩
          rw [hchannel]
          rfl
      | polling hs => exact Or.inl (.polling (hpolling _ _ hs))
      | saving hs => exact Or.inl (.saving (hsaving _ _ _ hs))

end Step

end Vynor.Polling
