import Vynor.Outbox.Dispatcher

/-!
# Leases

A worker whose claim has not run out holds the row it claimed, unchanged: the
row found under the id of an event the worker still has to deal with is the
very row the claim returned.  `Leased` says so for every worker and every
event, and every step keeps it as long as the completing and failing updates
are *timely*, that is, made before the lease of their event has run out.

The updates need that assumption because their condition is the id alone.  All
other statements keep the invariant by their own conditions: a claim takes
`PENDING` rows, recovery takes rows whose lease is past, and a release takes
rows claimed by the same worker.
-/

namespace Vynor.Outbox

open Lib (Table Machine)

/-- The events a poll still has to deal with, the one at hand first. -/
def Poll.events : Poll → List OutboxEvent
  | .idle => []
  | .claiming => []
  | .loop rest => rest
  | .releasing rest => rest
  | .sending event rest => event :: rest
  | .completing event rest => event :: rest
  | .failing event _ rest => event :: rest
  | .crashed => []

@[simp] theorem Poll.events_next (rest : List OutboxEvent) : (Poll.next rest).events = rest := by
  cases rest <;> rfl

/-- A completing or failing update lands before the lease of its event has run
out. -/
def Timely (w : World) (a : Action) (_ : World) : Prop :=
  match a with
  | .complete i _ _ => ∀ event rest, (w.worker i).poll = .completing event rest →
      ∀ lease, event.claimLeaseExpiresAt = some lease → w.now ≤ lease
  | .fail i => ∀ event errorMessage rest, (w.worker i).poll = .failing event errorMessage rest →
      ∀ lease, event.claimLeaseExpiresAt = some lease → w.now ≤ lease
  | _ => True

/-- What worker `i` may rely on for an event it claimed. -/
structure Holds (w : World) (i : WorkerId) (e : OutboxEvent) : Prop where
  processing : e.status = .processing
  claimedBy : e.claimedBy = some i
  lease : ∃ lease, e.claimLeaseExpiresAt = some lease ∧
    (w.now ≤ lease → w.events.find? e.id = some e)

/-- Every worker holds the events of its poll, each of them once. -/
structure Leased (w : World) : Prop where
  nodup : ∀ i, ((w.worker i).poll.events.map OutboxEvent.id).Nodup
  holds : ∀ i, ∀ e ∈ (w.worker i).poll.events, Holds w i e

/-- A world in which no poll is under way. -/
def World.Quiet (w : World) : Prop := ∀ i, (w.worker i).poll.events = []

theorem leased_of_quiet {w : World} (h : w.Quiet) : Leased w where
  nodup i := by rw [h i]; exact List.nodup_nil
  holds i e he := by rw [h i] at he; cases he

theorem quiet_init : World.init.Quiet := fun _ => rfl

/-! ## The clock and the polls -/

/-- The database clock never runs backwards. -/
theorem step_now {w w' : World} {a : Action} (h : step w a = some w') : w.now ≤ w'.now := by
  cases takes_of_step h with
  | claim hnow _ => exact hnow
  | recover hnow => exact hnow
  | deadLetter hnow => exact hnow
  | create _ | accept _ | shutdown | crash | recoveryFails => exact Int.le_refl _
  | poll | claimFails | stops _ | hands _ | release _ | releaseFails => exact Int.le_refl _
  | sendResolves _ _ | sendRejects _ | complete _ | completeFails _ => exact Int.le_refl _
  | fail _ | failFails => exact Int.le_refl _

/-- Moving one worker to a point with no more events than before. -/
theorem setPoll_sublist {w : World} {i : WorkerId} {p : Poll}
    (h : List.Sublist p.events (w.worker i).poll.events) (j : WorkerId) :
    List.Sublist ((w.setPoll i p).worker j).poll.events (w.worker j).poll.events := by
  by_cases hj : j = i
  · subst hj
    rw [World.setPoll_self]
    exact h
  · rw [World.setPoll_other w p hj]

/-- A step only takes events out of a poll, except for a claim of the worker. -/
theorem step_events {w w' : World} {a : Action} (h : step w a = some w') (j : WorkerId) :
    List.Sublist (w'.worker j).poll.events (w.worker j).poll.events ∨
      ∃ now locked picked, a = .claim j now locked picked ∧
        Claimable w.events now CLAIM_BATCH_SIZE locked picked ∧
        w'.events = (claimPendingOutboxEvents w.events j now picked).1 ∧
        (w'.worker j).poll.events = (claimPendingOutboxEvents w.events j now picked).2 := by
  have hnone : ∀ {i : WorkerId} {p : Poll}, p.events = [] →
      List.Sublist ((w.setPoll i p).worker j).poll.events (w.worker j).poll.events :=
    fun hp => setPoll_sublist (hp ▸ List.nil_sublist _) j
  cases takes_of_step h with
  | @claim i now locked picked _ hclaimable =>
      by_cases hj : j = i
      · subst hj
        refine Or.inr ⟨now, locked, picked, rfl, hclaimable, rfl, ?_⟩
        show ((w.setPoll j (Poll.next _)).worker j).poll.events = _
        rw [World.setPoll_self, Poll.events_next]
      · refine Or.inl ?_
        show List.Sublist ((w.setPoll i _).worker j).poll.events _
        rw [World.setPoll_other w _ hj]
  | stops hpoll | hands hpoll =>
      exact Or.inl (setPoll_sublist (by rw [hpoll]; exact List.Sublist.refl _) j)
  | sendResolves hpoll _ =>
      exact Or.inl (setPoll_sublist (by rw [hpoll]; exact List.Sublist.refl _) j)
  | sendRejects hpoll | completeFails hpoll =>
      exact Or.inl (setPoll_sublist (by rw [hpoll]; exact List.Sublist.refl _) j)
  | complete hpoll | fail hpoll =>
      refine Or.inl (setPoll_sublist ?_ j)
      rw [hpoll, Poll.events_next]
      exact List.sublist_cons_self _ _
  | poll | claimFails | release _ | releaseFails | failFails | crash => exact Or.inl (hnone rfl)
  | @shutdown i =>
      refine Or.inl ?_
      by_cases hj : j = i
      · subst hj
        simp
      · simp [hj]
  | create _ | accept _ | recover _ | deadLetter _ | recoveryFails =>
      exact Or.inl (List.Sublist.refl _)

/-! ## Fresh claims -/

/-- A claimed event is the row of the table after the claim, in `PROCESSING`
under the worker and with a full lease. -/
theorem holds_of_claimed {w w' : World} {i : WorkerId} {now : Date} {picked : List Id}
    (hevents : w'.events = (claimPendingOutboxEvents w.events i now picked).1) {e : OutboxEvent}
    (he : e ∈ (claimPendingOutboxEvents w.events i now picked).2) : Holds w' i e := by
  obtain ⟨id, hid, hfind⟩ := List.mem_filterMap.mp he
  have hkey : e.id = id := id_of_find? hfind
  have hrow := (Table.find?_eq_some.mp hfind).1
  obtain ⟨r, _, hr⟩ := Table.mem_updateMany.mp hrow
  have hpicked : r.id ∈ picked := by
    by_contra hnot
    rw [if_neg (by simpa using hnot)] at hr
    subst hr
    exact hnot (hkey ▸ hid)
  rw [if_pos (by simpa using hpicked)] at hr
  subst hr
  refine ⟨rfl, rfl, _, rfl, fun _ => ?_⟩
  rw [hevents, hkey]
  exact hfind

/-- The ids of claimed events are distinct. -/
theorem nodup_claimed (t : Events) (i : WorkerId) (now : Date) :
    ∀ {picked : List Id} {ids : List Id}, picked.Nodup →
      ((picked.filterMap (claimPendingOutboxEvents t i now ids).1.find?).map
        OutboxEvent.id).Nodup := by
  intro picked ids h
  have hsub : List.Sublist
      ((picked.filterMap (claimPendingOutboxEvents t i now ids).1.find?).map OutboxEvent.id)
      picked := by
    induction picked with
    | nil => exact List.Sublist.refl _
    | cons id picked ih =>
        have ih := ih (List.nodup_cons.mp h).2
        cases hf : (claimPendingOutboxEvents t i now ids).1.find? id with
        | none =>
            rw [List.filterMap_cons_none hf]
            exact ih.cons _
        | some e =>
            rw [List.filterMap_cons_some hf, List.map_cons, id_of_find? hf]
            exact ih.cons_cons _
  exact h.sublist hsub

/-! ## Held rows stay -/

/-- A timely completing or failing update is made on the row as it was
claimed. -/
theorem Leased.find?_event {w : World} (hw : Leased w) {i : WorkerId} {event : OutboxEvent}
    (hmem : event ∈ (w.worker i).poll.events)
    (htime : ∀ lease, event.claimLeaseExpiresAt = some lease → w.now ≤ lease) :
    w.events.find? event.id = some event := by
  obtain ⟨lease, hlease, hfind⟩ := (hw.holds i event hmem).lease
  exact hfind (htime lease hlease)

/-- No timely step changes a row that a worker holds and keeps. -/
theorem rowStep_of_held {w w' : World} {a : Action} {j : WorkerId} {e e' : OutboxEvent}
    (hw : Leased w) (hstep : step w a = some w') (ht : Timely w a w')
    (he : e ∈ (w.worker j).poll.events) (hkeep : e ∈ (w'.worker j).poll.events)
    (hlease : ∀ lease, e.claimLeaseExpiresAt = some lease → w'.now ≤ lease)
    (hfind : w.events.find? e.id = some e) (hrow : RowStep w a e e') : e' = e := by
  have hheld := hw.holds j e he
  -- An update of another event of the same worker is not on this row.
  have hother : ∀ i event rest, (w.worker i).poll.events = event :: rest →
      (w'.worker i).poll.events = rest →
      (∀ lease, event.claimLeaseExpiresAt = some lease → w.now ≤ lease) → e.id ≠ event.id := by
    intro i event rest hpoll hpoll' htime hid
    have hevent : event ∈ (w.worker i).poll.events := by rw [hpoll]; exact List.mem_cons_self ..
    have heq : e = event := by
      have hf := hw.find?_event hevent htime
      rw [← hid, hfind] at hf
      exact Option.some.inj hf
    subst heq
    have hij : j = i := by
      have hc := (hw.holds i e hevent).claimedBy
      rw [hheld.claimedBy] at hc
      exact Option.some.inj hc
    subst hij
    have hnd := hw.nodup j
    rw [hpoll, List.map_cons, List.nodup_cons] at hnd
    rw [hpoll'] at hkeep
    exact hnd.1 (List.mem_map_of_mem hkeep)
  have hlive : ¬ e.orphaned w'.now = true := by
    intro horphan
    obtain ⟨lease, hl, hlt⟩ := (OutboxEvent.orphaned_iff.mp horphan).2
    exact absurd (hlease lease hl) (Int.not_le.mpr hlt)
  cases hrow with
  | same => rfl
  | claim _ hdue =>
      simp [OutboxEvent.due, hheld.processing] at hdue
  | recover horphan _ =>
      simp only [step] at hstep
      split at hstep
      · cases hstep
        exact absurd horphan hlive
      · cases hstep
  | bury horphan _ =>
      simp only [step] at hstep
      split at hstep
      · cases hstep
        exact absurd horphan hlive
      · cases hstep
  | @complete i processedAt dispatchedAt _ event rest hpoll hid =>
      have hpoll' : (w'.worker i).poll.events = rest := by
        simp only [step, hpoll, Option.some.injEq] at hstep
        subst hstep
        show ((w.setPoll i _).worker i).poll.events = rest
        rw [World.setPoll_self, Poll.events_next]
      exact absurd hid (hother i event rest (by rw [hpoll]; rfl) hpoll' (ht event rest hpoll))
  | @fail i errorMessage _ event rest hpoll hid =>
      have hpoll' : (w'.worker i).poll.events = rest := by
        simp only [step, hpoll, Option.some.injEq] at hstep
        subst hstep
        show ((w.setPoll i _).worker i).poll.events = rest
        rw [World.setPoll_self, Poll.events_next]
      exact absurd hid
        (hother i event rest (by rw [hpoll]; rfl) hpoll' (ht event errorMessage rest hpoll))
  | @release i _ rest hpoll hclaim =>
      have hij : j = i := by
        simp only [OutboxEvent.claimHeld, Bool.and_eq_true, decide_eq_true_eq,
          hheld.claimedBy] at hclaim
        exact Option.some.inj hclaim.2
      subst hij
      simp only [step, hpoll, Option.some.injEq] at hstep
      subst hstep
      have hempty : ((w.setPoll j .idle).worker j).poll.events = [] := by
        rw [World.setPoll_self]
        rfl
      change e ∈ ((w.setPoll j .idle).worker j).poll.events at hkeep
      rw [hempty] at hkeep
      cases hkeep

/-- Timely steps keep the leases. -/
theorem leased_step {w w' : World} {a : Action} (hw : Leased w) (hstep : step w a = some w')
    (ht : Timely w a w') : Leased w' where
  nodup i := by
    cases step_events hstep i with
    | inl hsub => exact (hw.nodup i).sublist (hsub.map _)
    | inr hclaim =>
        obtain ⟨now, locked, picked, _, hc, _, hpoll⟩ := hclaim
        rw [hpoll]
        exact nodup_claimed w.events i now hc.1
  holds i e he := by
    cases step_events hstep i with
    | inl hsub =>
        have hold := hsub.subset he
        obtain ⟨lease, hlease, hfind⟩ := (hw.holds i e hold).lease
        refine ⟨(hw.holds i e hold).processing, (hw.holds i e hold).claimedBy, lease, hlease, ?_⟩
        intro hnow
        have hrow := hfind (Int.le_trans (step_now hstep) hnow)
        obtain ⟨e', he', hrs⟩ := step_row hstep hrow
        have hl : ∀ l, e.claimLeaseExpiresAt = some l → w'.now ≤ l := by
          intro l h
          rw [hlease] at h
          cases h
          exact hnow
        rw [he', rowStep_of_held hw hstep ht hold he hl hrow hrs]
    | inr hclaim =>
        obtain ⟨now, locked, picked, _, _, hevents, hpoll⟩ := hclaim
        rw [hpoll] at he
        exact holds_of_claimed hevents he

end Vynor.Outbox
