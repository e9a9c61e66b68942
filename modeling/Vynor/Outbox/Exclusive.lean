import Vynor.Outbox.Ledger
import Vynor.Outbox.Terminal

/-!
# Exclusive claims

While a grant is outstanding and its lease has not run out, no claim returns its
event.  The row lock protects the claiming statement only.  Afterwards the row is
`PROCESSING` under the lease, or final, and claims take `PENDING` rows.  The one
statement that can make it `PENDING` before is the failing update of another
worker, since that goes by the id alone.
-/

namespace Vynor.Outbox

open Lib (Table Machine)

namespace Ledger

/-- A claim returns no event that is granted under a lease that still runs. -/
def Exclusive (L : Ledger) (a : Action) (_ : Ledger) : Prop :=
  ∀ i now locked picked, a = .claim i now locked picked →
    ∀ g ∈ L.grants, now ≤ g.lease → g.id ∉ picked

/-- No worker that fails an event puts it back to `PENDING` while another worker is
granted it under a lease that still runs. -/
def NoForeignFailure (L : Ledger) (a : Action) (_ : Ledger) : Prop :=
  ∀ i event errorMessage rest, a = .fail i →
    (L.world.worker i).poll = .failing event errorMessage rest → event.failedStatus = .pending →
    ∀ g ∈ L.grants, g.id = event.id → g.worker ≠ i → g.lease < L.world.now

/-- The row of a grant is final, or it is still claimed under that grant. -/
def Secured (e : OutboxEvent) (g : Grant) : Prop :=
  e.status.terminal = true ∨
    e.status = .processing ∧ e.claimedBy = some g.worker ∧ e.claimLeaseExpiresAt = some g.lease

/-- Every grant whose lease still runs is secured by its row. -/
def AllSecured (L : Ledger) : Prop :=
  ∀ g ∈ L.grants, L.world.now ≤ g.lease →
    ∃ e, L.world.events.find? g.id = some e ∧ Secured e g

theorem allSecured_init : AllSecured Ledger.init := by
  intro g hg
  cases hg

/-- A claim that is just made is secured. -/
theorem secured_of_claim {w w' : World} {i : WorkerId} {now : Date} {picked : List Id}
    (hevents : w'.events = (claimPendingOutboxEvents w.events i now picked).1) {g : Grant}
    (hg : g ∈ grantsOf i (claimPendingOutboxEvents w.events i now picked).2) (hnow : w'.now ≤ g.lease) :
    ∃ e, w'.events.find? g.id = some e ∧ Secured e g := by
  obtain ⟨hworker, e, he, hid, hlease⟩ := mem_grantsOf hg
  have hholds := holds_of_claimed hevents he
  obtain ⟨lease, hlease', hfind⟩ := hholds.lease
  rw [hlease] at hlease'
  cases hlease'
  exact ⟨e, hid ▸ hfind hnow, Or.inr ⟨hholds.processing, hworker ▸ hholds.claimedBy, hlease⟩⟩

/-- A row that is claimed under a running lease cannot be orphaned. -/
theorem not_orphaned_of_secured {e : OutboxEvent} {g : Grant} {now : Date} (hs : Secured e g)
    (hnow : now ≤ g.lease) : e.orphaned now = false := by
  by_contra horphaned
  obtain ⟨hprocessing, lease, hlease, hpast⟩ :=
    OutboxEvent.orphaned_iff.mp (by simpa using horphaned)
  rcases hs with hterminal | ⟨_, _, hgrant⟩
  · rw [hprocessing] at hterminal
    cases hterminal
  · rw [hgrant] at hlease
    cases hlease
    exact absurd hnow (Int.not_le.mpr hpast)

/-- A secured row is not due. -/
theorem not_due_of_secured {e : OutboxEvent} {g : Grant} {now : Date} (hs : Secured e g) :
    e.due now = false := by
  rcases hs with hterminal | ⟨hprocessing, _⟩
  · cases hstatus : e.status with
    | completed | deadLetter => simp [OutboxEvent.due, hstatus]
    | pending | processing | failed =>
        rw [hstatus] at hterminal
        cases hterminal
  · simp [OutboxEvent.due, hprocessing]

/-- A recovery statement brings the clock to its own time. -/
theorem now_of_recovery {w w' : World} {a : Action} (h : Outbox.step w a = some w') (now : Date)
    (ha : a = .recover now ∨ a = .deadLetter now) : w'.now = now := by
  rcases ha with rfl | rfl
  · cases takes_of_step h with
    | recover => rfl
  · cases takes_of_step h with
    | deadLetter => rfl

theorem events_of_claim {w w' : World} {i : WorkerId} {now : Date} {locked picked : List Id}
    (h : Outbox.step w (.claim i now locked picked) = some w') :
    w'.events = (claimPendingOutboxEvents w.events i now picked).1 := by
  cases takes_of_step h with
  | claim => rfl

/-- What a step leaves of the row of a grant that stays outstanding. -/
theorem Secured.step {L L' : Ledger} {a : Action} (h : L.step a = some L')
    (hforeign : NoForeignFailure L a L') {g : Grant} (hg : g ∈ L.grants)
    (hkept : g ∈ grantsAfter L.world L.grants a) (hnow : L'.world.now ≤ g.lease) {e e' : OutboxEvent}
    (he : L.world.events.find? g.id = some e) (hs : Secured e g) (hrow : RowStep L.world a e e') :
    Secured e' g := by
  obtain ⟨hstep, _, _⟩ := of_step h
  have hclock := now_of_recovery hstep
  cases hrow with
  | same => exact hs
  | claim _ hdue =>
      rw [not_due_of_secured hs] at hdue
      cases hdue
  | @recover now _ horphaned _ =>
      rw [hclock now (Or.inl rfl)] at hnow
      rw [not_orphaned_of_secured hs hnow] at horphaned
      cases horphaned
  | @bury now _ horphaned _ =>
      rw [hclock now (Or.inr rfl)] at hnow
      rw [not_orphaned_of_secured hs hnow] at horphaned
      cases horphaned
  | complete => exact Or.inl rfl
  | @fail i errorMessage _ event rest hpoll hid =>
      cases hstatus : event.failedStatus with
      | deadLetter => exact Or.inl rfl
      | pending =>
          have hgid : g.id = event.id := by rw [← hid, id_of_find? he]
          simp only [grantsAfter, hpoll] at hkept
          have hother : g.worker ≠ i := by
            intro hworker
            exact (mem_keptGrants.mp hkept).2 ⟨hworker, by simp [hgid]⟩
          have hpast := hforeign i event errorMessage rest rfl hpoll hstatus g hg hgid hother
          have hle := Int.le_trans (step_now hstep) hnow
          exact absurd hle (Int.not_le.mpr hpast)
      | completed => exact absurd hstatus event.failedStatus_ne_completed
      | processing | failed =>
          unfold OutboxEvent.failedStatus at hstatus
          split at hstatus <;> cases hstatus
  | @release i _ rest hpoll hheld =>
      simp only [OutboxEvent.claimHeld, Bool.and_eq_true, decide_eq_true_eq] at hheld
      obtain ⟨⟨hmem, hprocessing⟩, hclaimed⟩ := hheld
      rcases hs with hterminal | ⟨_, hworker, _⟩
      · rw [hprocessing] at hterminal
        cases hterminal
      · rw [hworker] at hclaimed
        simp only [grantsAfter, hpoll] at hkept
        refine absurd ⟨Option.some.inj hclaimed, ?_⟩ (mem_keptGrants.mp hkept).2
        rw [← id_of_find? he]
        exact hmem

/-- Every step without a foreign failure keeps the grants secured. -/
theorem allSecured_of_step {L L' : Ledger} {a : Action} (hL : AllSecured L) (h : L.step a = some L')
    (hforeign : NoForeignFailure L a L') : AllSecured L' := by
  intro g hg hnow
  obtain ⟨hstep, hgrants, _⟩ := of_step h
  rw [hgrants] at hg
  rcases mem_grantsAfter hg with hold | ⟨i, now, locked, picked, rfl, hnew⟩
  · obtain ⟨e, he, hs⟩ := hL g hold (Int.le_trans (step_now hstep) hnow)
    obtain ⟨e', he', hrow⟩ := step_row hstep he
    exact ⟨e', he', hs.step h hforeign hold hg hnow he hrow⟩
  · exact secured_of_claim (events_of_claim hstep) hnew hnow

/-- A claim takes no event whose grant is secured. -/
theorem exclusive_of_secured {L L' : Ledger} {a : Action} (hL : AllSecured L)
    (h : L.step a = some L') : Exclusive L a L' := by
  rintro i now locked picked rfl g hg hnow hpicked
  obtain ⟨hstep, _, _⟩ := of_step h
  simp only [Outbox.step] at hstep
  split at hstep
  next hclaim =>
    obtain ⟨e, he, hs⟩ := hL g hg (Int.le_trans hclaim.2.1 hnow)
    have hdue := hclaim.2.2.due he (by rwa [id_of_find? he])
    rw [not_due_of_secured hs] at hdue
    cases hdue
  · cases hstep

/-- Along every run without a foreign failure, claims are exclusive. -/
theorem along_exclusive {as : List Action} (h : machine.Along NoForeignFailure Ledger.init as) :
    machine.Along Exclusive Ledger.init as :=
  Machine.along_of_along (M := machine) (I := AllSecured)
    (fun _ _ _ hI hs hP => ⟨allSecured_of_step hI hs hP, exclusive_of_secured hI hs⟩) allSecured_init h

/-- Worker `a` crashes, and worker `b` claims its event when the lease has run
out. -/
def reclaimRun : List Action :=
  [.create "e" 0 lateEvent, .poll "a", .claim "a" 0 [] ["e"], .enter "a" true 0, .crash "a",
    .recover 60001, .deadLetter 60001, .poll "b", .claim "b" 60001 [] ["e"]]

/-- The theorem at that run, which ends with two grants of one event. -/
theorem along_exclusive_reclaimRun :
    machine.Along Exclusive Ledger.init reclaimRun ∧
      (machine.run Ledger.init reclaimRun).map Ledger.grants
        = some [⟨"b", "e", 120001⟩, ⟨"a", "e", 60000⟩] := by
  refine ⟨along_exclusive (Machine.along_of_forall ?_ _), by decide⟩
  intro a ha L L' _ i event errorMessage rest hfail
  subst hfail
  simp [reclaimRun] at ha

/-- As in `lateRun`, but the send of `a` rejects while `b` still works on the
event. -/
def theftRun : List Action :=
  [.create "e" 0 lateEvent, .poll "a", .claim "a" 0 [] ["e"], .enter "a" true 0,
    .recover 60001, .deadLetter 60001, .poll "b", .claim "b" 60001 [] ["e"], .enter "b" true 60001,
    .sendRejects "a" "timeout", .fail "a", .poll "c"]

/-- A third worker claims the event that `b` holds under a running lease. -/
theorem not_exclusive : ¬ ∀ as, machine.Along Exclusive Ledger.init as := by
  intro hall
  have hview : ((machine.run Ledger.init theftRun).bind fun L =>
      (machine.step L (.claim "c" 60002 [] ["e"])).map fun _ => L.grants)
      = some [⟨"b", "e", 120001⟩] := by decide
  obtain ⟨L, L', hrun, hstep, hgrants⟩ := Machine.exists_last hview
  have hexclusive := (hall (theftRun ++ [.claim "c" 60002 [] ["e"]])).last hrun hstep
  refine hexclusive "c" 60002 [] ["e"] rfl ⟨"b", "e", 120001⟩ ?_ (by decide) (by decide)
  rw [hgrants]
  exact List.mem_singleton.mpr rfl

end Ledger

end Vynor.Outbox
