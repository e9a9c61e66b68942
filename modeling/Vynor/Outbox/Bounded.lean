import Vynor.Outbox.Ledger
import Vynor.Outbox.Polls
import Vynor.Outbox.Terminal

/-!
# Bounded dispatch

Every hand-over of an event is counted in its `retryCount` before the next one:
by the failing update, or by the recovery of the lease of a worker that crashed.
The dispatcher gives up when the count reaches its limit, but recovery compares
before it counts, so it puts back a row whose attempts are used up.
-/

namespace Vynor.Outbox

open Lib (Table Machine)

/-- The worker whose claimed events an action works on. -/
def Action.poller? : Action → Option WorkerId
  | .enter i _ _ => some i
  | .release i => some i
  | .releaseFails i => some i
  | .sendResolves i => some i
  | .sendRejects i _ => some i
  | .complete i _ _ => some i
  | .completeFails i _ => some i
  | .fail i => some i
  | .failFails i => some i
  | _ => none

/-- The lease of the event has not run out. -/
def OutboxEvent.Running (e : OutboxEvent) (now : Date) : Prop :=
  ∀ lease ∈ e.claimLeaseExpiresAt, now ≤ lease

instance (e : OutboxEvent) (now : Date) : Decidable (e.Running now) :=
  inferInstanceAs (Decidable (∀ lease ∈ e.claimLeaseExpiresAt, now ≤ lease))

theorem handedBy?_eq_some {w : World} {a : Action} {event : OutboxEvent}
    (h : handedBy? w a = some event) :
    ∃ i isRunning now rest, a = .enter i isRunning now ∧ (w.worker i).poll = .loop (event :: rest) := by
  unfold handedBy? at h
  split at h
  next i isRunning now =>
    split at h
    next event' rest hpoll =>
      split at h
      · cases h
      · cases h
        exact ⟨i, isRunning, now, rest, rfl, hpoll⟩
    · cases h
  · cases h

namespace Ledger

/-- Each worker finishes or crashes before a lease of its poll runs out. -/
def Prompt (L : Ledger) (a : Action) (_ : Ledger) : Prop :=
  ∀ i, a.poller? = some i → ∀ e ∈ (L.world.worker i).poll.events, e.Running L.world.now

/-- No event is handed over whose attempts are used up already. -/
def WithinRetries (L : Ledger) (a : Action) (_ : Ledger) : Prop :=
  ∀ event, handedBy? L.world a = some event → event.retryCount < MAX_DISPATCH_ATTEMPTS

/-- No event has been handed over more often than allowed, and a release uses no
attempt. -/
def Bounded (L : Ledger) (a : Action) (L' : Ledger) : Prop :=
  (∀ id, L'.handed.count id ≤ MAX_DISPATCH_ATTEMPTS) ∧
    ∀ i, a = .release i → L'.handed = L.handed ∧
      ∀ id e, L.world.events.find? id = some e →
        ∃ e', L'.world.events.find? id = some e' ∧ e'.retryCount = e.retryCount

/-- The retries of a row account for this many hand-overs. -/
structure Tallied (e : OutboxEvent) (n : Nat) : Prop where
  pending : e.status = .pending → n ≤ e.retryCount
  processing : e.status = .processing → n ≤ e.retryCount + 1

structure Counted (L : Ledger) : Prop where
  leased : Leased L.world
  bounded : ∀ id, L.handed.count id ≤ MAX_DISPATCH_ATTEMPTS
  absent : ∀ id, L.world.events.find? id = none → L.handed.count id = 0
  rows : ∀ id e, L.world.events.find? id = some e → Tallied e (L.handed.count id)
  /-- An event that waits in a poll was not handed over since it was claimed. -/
  waiting : ∀ i, ∀ e ∈ (L.world.worker i).poll.waiting, e.Running L.world.now →
    L.handed.count e.id ≤ e.retryCount

theorem counted_init : Counted Ledger.init where
  leased := leased_of_quiet quiet_init
  bounded _ := Nat.zero_le _
  absent _ _ := rfl
  rows _ _ h := nomatch h
  waiting _ _ h := nomatch h

/-- Prompt workers make their updates in time. -/
theorem Prompt.timely {L L' : Ledger} {a : Action} (h : Prompt L a L') (w : World) :
    Timely L.world a w := by
  cases a with
  | complete i processedAt dispatchedAt =>
      intro event rest hpoll lease hlease
      exact h i rfl event (by rw [hpoll]; exact List.mem_cons_self) lease hlease
  | fail i =>
      intro event errorMessage rest hpoll lease hlease
      exact h i rfl event (by rw [hpoll]; exact List.mem_cons_self) lease hlease
  | _ => trivial

/-- While its lease runs, an event of a poll is the row of the table. -/
theorem find?_of_running {w : World} (hw : Leased w) {i : WorkerId} {e : OutboxEvent}
    (he : e ∈ (w.worker i).poll.events) (hrunning : e.Running w.now) :
    w.events.find? e.id = some e :=
  hw.find?_event he fun lease hlease => hrunning lease hlease

/-- A step accounts for the hand-overs before it. -/
theorem Tallied.step {L L' : Ledger} {a : Action} (hL : Counted L) (hprompt : Prompt L a L') {id : Id}
    {e e' : OutboxEvent} (he : L.world.events.find? id = some e) (hrow : RowStep L.world a e e') :
    Tallied e' (L.handed.count id) := by
  have htally := hL.rows id e he
  have hid := id_of_find? he
  cases hrow with
  | same => exact htally
  | claim _ hdue =>
      have hpending : e.status = .pending := by
        simp only [OutboxEvent.due, Bool.and_eq_true, decide_eq_true_eq] at hdue
        exact hdue.1
      exact ⟨fun h => (by cases h), fun _ => Nat.le_succ_of_le (htally.pending hpending)⟩
  | recover horphaned _ =>
      exact ⟨fun _ => htally.processing (OutboxEvent.orphaned_iff.mp horphaned).1, fun h => (by cases h)⟩
  | bury | complete => exact ⟨fun h => (by cases h), fun h => (by cases h)⟩
  | @fail i errorMessage _ event rest hpoll hevent =>
      have hmem : event ∈ (L.world.worker i).poll.events := by
        rw [hpoll]
        exact List.mem_cons_self
      have hfind := find?_of_running hL.leased hmem (hprompt i rfl event hmem)
      rw [← hevent, hid, he] at hfind
      cases hfind
      have hcount := htally.processing (hL.leased.holds i e hmem).processing
      exact ⟨fun _ => hcount, fun _ => Nat.le_succ_of_le hcount⟩
  | @release i _ rest hpoll hheld =>
      simp only [OutboxEvent.claimHeld, Bool.and_eq_true, decide_eq_true_eq] at hheld
      obtain ⟨event, hevent, heventId⟩ := List.mem_map.mp hheld.1.1
      have hwaiting : event ∈ (L.world.worker i).poll.waiting := by
        rw [hpoll]
        exact hevent
      have hmem := (Poll.waiting_sublist _).subset hwaiting
      have hrunning := hprompt i rfl event hmem
      have hfind := find?_of_running hL.leased hmem hrunning
      rw [heventId, hid, he] at hfind
      cases hfind
      have hcount := hL.waiting i e hwaiting hrunning
      rw [hid] at hcount
      exact ⟨fun _ => hcount, fun h => (by cases h)⟩

/-! ## Steps without a hand-over -/

/-- A row that appears in a step is new. -/
theorem tallied_of_step {L L' : Ledger} {a : Action} (hL : Counted L) (h : L.step a = some L')
    (hprompt : Prompt L a L') {id : Id} {e' : OutboxEvent}
    (he' : L'.world.events.find? id = some e') : Tallied e' (L.handed.count id) := by
  obtain ⟨hstep, _, _⟩ := of_step h
  cases hfind : L.world.events.find? id with
  | some e =>
      obtain ⟨row, hrow, hstep⟩ := step_row hstep hfind
      rw [he'] at hrow
      cases hrow
      exact Tallied.step hL hprompt hfind hstep
  | none =>
      rw [hL.absent id hfind]
      exact ⟨fun _ => Nat.zero_le _, fun _ => Nat.zero_le _⟩

theorem absent_of_step {L L' : Ledger} {a : Action} (hL : Counted L) (h : L.step a = some L') {id : Id}
    (hnone : L'.world.events.find? id = none) :
    L.world.events.find? id = none ∧ L.handed.count id = 0 := by
  obtain ⟨hstep, _, _⟩ := of_step h
  cases hfind : L.world.events.find? id with
  | some e =>
      obtain ⟨row, hrow, _⟩ := step_row hstep hfind
      rw [hnone] at hrow
      cases hrow
  | none => exact ⟨rfl, hL.absent id hfind⟩

/-- A claimed event was accounted for while it was `PENDING`. -/
theorem count_of_claimed {L : Ledger} (hL : Counted L) {i : WorkerId} {now : Date}
    {locked picked : List Id} (hclaim : Claimable L.world.events now CLAIM_BATCH_SIZE locked picked)
    {e : OutboxEvent} (he : e ∈ (claimPendingOutboxEvents L.world.events i now picked).2) :
    L.handed.count e.id ≤ e.retryCount := by
  obtain ⟨id, hpicked, hfind⟩ := List.mem_filterMap.mp he
  cases hbefore : L.world.events.find? id with
  | none =>
      rw [Table.find?_updateMany, hbefore] at hfind
      cases hfind
  | some row =>
      have hid := id_of_find? hbefore
      have hafter := find?_claim i now picked hbefore
      rw [if_pos (by simpa [hid] using hpicked)] at hafter
      have heq : e = row.claim i now := Option.some.inj (hfind.symm.trans hafter)
      subst heq
      have hdue := hclaim.due hbefore (hid ▸ hpicked)
      simp only [OutboxEvent.due, Bool.and_eq_true, decide_eq_true_eq] at hdue
      show L.handed.count row.id ≤ row.retryCount
      rw [hid]
      exact (hL.rows id row hbefore).pending hdue.1

/-- What waits after a step was accounted for before it. -/
theorem waiting_of_step {L L' : Ledger} {a : Action} (hL : Counted L) (h : L.step a = some L')
    {i : WorkerId} {e : OutboxEvent} (he : e ∈ (L'.world.worker i).poll.waiting)
    (hrunning : e.Running L'.world.now) : L.handed.count e.id ≤ e.retryCount := by
  obtain ⟨hstep, _, _⟩ := of_step h
  rcases mem_waiting_of_step hstep he with hold | ⟨now, locked, picked, rfl, hnew⟩
  · refine hL.waiting i e hold fun lease hlease => ?_
    exact Int.le_trans (step_now hstep) (hrunning lease hlease)
  · simp only [Outbox.step] at hstep
    split at hstep
    next hclaim =>
      exact count_of_claimed hL hclaim.2.2 hnew
    · cases hstep

/-! ## Hand-overs -/

/-- A step that hands nothing over keeps the counts. -/
theorem counted_of_handed_eq {L L' : Ledger} {a : Action} (hL : Counted L) (h : L.step a = some L')
    (hprompt : Prompt L a L') (hhanded : L'.handed = L.handed) : Counted L' where
  leased := leased_step hL.leased (of_step h).1 (hprompt.timely L'.world)
  bounded id := by
    rw [hhanded]
    exact hL.bounded id
  absent id hnone := by
    rw [hhanded]
    exact (absent_of_step hL h hnone).2
  rows id e he := by
    rw [hhanded]
    exact tallied_of_step hL h hprompt he
  waiting i e he hrunning := by
    rw [hhanded]
    exact waiting_of_step hL h he hrunning

/-- Running events of one id that wait in polls wait in one poll. -/
theorem worker_eq_of_running {w : World} (hw : Leased w) {i j : WorkerId} {a b : OutboxEvent}
    (ha : a ∈ (w.worker i).poll.events) (hb : b ∈ (w.worker j).poll.events) (hid : a.id = b.id)
    (harunning : a.Running w.now) (hbrunning : b.Running w.now) : i = j ∧ a = b := by
  have hfind := find?_of_running hw ha harunning
  rw [hid, find?_of_running hw hb hbrunning] at hfind
  cases hfind
  have hclaimed := (hw.holds i a ha).claimedBy
  rw [(hw.holds j a hb).claimedBy] at hclaimed
  exact ⟨(Option.some.inj hclaimed).symm, rfl⟩

/-- The poll of a worker that hands an event over no longer waits with it. -/
theorem not_waiting_of_enter {w w' : World} {i : WorkerId} {isRunning : Bool} {now : Date}
    {event : OutboxEvent} {rest : List OutboxEvent} (hw : Leased w)
    (h : Outbox.step w (.enter i isRunning now) = some w')
    (hhanded : handedBy? w (.enter i isRunning now) = some event)
    (hpoll : (w.worker i).poll = .loop (event :: rest)) :
    (w'.worker i).poll.waiting = rest ∧ event.id ∉ rest.map OutboxEvent.id := by
  have hnodup := hw.nodup i
  rw [hpoll] at hnodup
  refine ⟨?_, (List.nodup_cons.mp hnodup).1⟩
  simp only [handedBy?, hpoll] at hhanded
  simp only [Outbox.step, hpoll] at h
  split at hhanded
  · cases hhanded
  next hgoing =>
    rw [if_neg hgoing] at h
    cases h
    show ((w.setPoll i _).worker i).poll.waiting = rest
    rw [World.setPoll_self]
    rfl

/-- A hand-over uses the attempt that the event's row still has. -/
theorem counted_of_enter {L L' : Ledger} {i : WorkerId} {isRunning : Bool} {now : Date}
    {event : OutboxEvent} {rest : List OutboxEvent} (hL : Counted L)
    (h : L.step (.enter i isRunning now) = some L') (hprompt : Prompt L (.enter i isRunning now) L')
    (hwithin : WithinRetries L (.enter i isRunning now) L')
    (hhanded : handedBy? L.world (.enter i isRunning now) = some event)
    (hpoll : (L.world.worker i).poll = .loop (event :: rest)) : Counted L' := by
  obtain ⟨hstep, _, hafter⟩ := of_step h
  rw [handedAfter, hhanded] at hafter
  have hafter : L'.handed = event.id :: L.handed := hafter
  have hmem : event ∈ (L.world.worker i).poll.events := by
    rw [hpoll]
    exact List.mem_cons_self
  have hrunning := hprompt i rfl event hmem
  have hfind := find?_of_running hL.leased hmem hrunning
  have hheld := hL.leased.holds i event hmem
  have hwaiting := hL.waiting i event (by rw [hpoll]; exact List.mem_cons_self) hrunning
  refine ⟨leased_step hL.leased hstep (hprompt.timely L'.world), ?_, ?_, ?_, ?_⟩
  · intro id
    rw [hafter, List.count_cons]
    split
    next hid =>
      rw [← eq_of_beq hid]
      exact Nat.lt_of_le_of_lt hwaiting (hwithin event hhanded)
    · exact hL.bounded id
  · intro id hnone
    obtain ⟨hbefore, hcount⟩ := absent_of_step hL h hnone
    have hne : event.id ≠ id := by
      rintro rfl
      rw [hfind] at hbefore
      cases hbefore
    rw [hafter, List.count_cons_of_ne hne]
    exact hcount
  · intro id e he
    by_cases hid : event.id = id
    · subst hid
      obtain ⟨row, hrow, hsame⟩ := step_row hstep hfind
      rw [he] at hrow
      cases hrow
      cases hsame
      rw [hafter, List.count_cons_self]
      exact ⟨fun hpending => absurd (hheld.processing.symm.trans hpending) nofun,
        fun _ => Nat.succ_le_succ hwaiting⟩
    · rw [hafter, List.count_cons_of_ne hid]
      exact tallied_of_step hL h hprompt he
  · intro j e he herunning
    have hne : event.id ≠ e.id := by
      intro hid
      have hnow : e.Running L.world.now := fun lease hlease =>
        Int.le_trans (step_now hstep) (herunning lease hlease)
      rcases mem_waiting_of_step hstep he with hold | ⟨_, _, _, hclaim, _⟩
      · have hold := (Poll.waiting_sublist _).subset hold
        obtain ⟨rfl, _⟩ := worker_eq_of_running hL.leased hmem hold hid hrunning hnow
        obtain ⟨hrest, hnot⟩ := not_waiting_of_enter hL.leased hstep hhanded hpoll
        rw [hrest] at he
        exact hnot (hid ▸ List.mem_map_of_mem he)
      · cases hclaim
    rw [hafter, List.count_cons_of_ne hne]
    exact waiting_of_step hL h he herunning

theorem counted_step {L L' : Ledger} {a : Action} (hL : Counted L) (h : L.step a = some L')
    (hprompt : Prompt L a L') (hwithin : WithinRetries L a L') : Counted L' := by
  cases hhanded : handedBy? L.world a with
  | none =>
      refine counted_of_handed_eq hL h hprompt ?_
      rw [(of_step h).2.2, handedAfter, hhanded]
  | some event =>
      obtain ⟨i, isRunning, now, rest, rfl, hpoll⟩ := handedBy?_eq_some hhanded
      exact counted_of_enter hL h hprompt hwithin hhanded hpoll

/-! ## Runs -/

/-- A release changes no retries and hands nothing over. -/
theorem release_keeps {L L' : Ledger} {i : WorkerId} (h : L.step (.release i) = some L') :
    L'.handed = L.handed ∧ ∀ id e, L.world.events.find? id = some e →
      ∃ e', L'.world.events.find? id = some e' ∧ e'.retryCount = e.retryCount := by
  obtain ⟨hstep, _, hhanded⟩ := of_step h
  refine ⟨hhanded, fun id e he => ?_⟩
  obtain ⟨e', he', hrow⟩ := step_row hstep he
  refine ⟨e', he', ?_⟩
  cases hrow <;> rfl

/-- Along every run of prompt workers in which no event is handed over with its
attempts used up, dispatch is bounded. -/
theorem along_bounded {as : List Action}
    (h : machine.Along (fun L a L' => Prompt L a L' ∧ WithinRetries L a L') Ledger.init as) :
    machine.Along Bounded Ledger.init as := by
  refine Machine.along_of_along (M := machine) (I := Counted) ?_ counted_init h
  intro L a L' hL hstep hgood
  have hL' := counted_step hL hstep hgood.1 hgood.2
  refine ⟨hL', hL'.bounded, ?_⟩
  rintro i rfl
  exact release_keeps hstep

/-- Whether the workers are prompt. -/
def promptTest (L : Ledger) (a : Action) : Bool :=
  a.poller?.all fun i => (L.world.worker i).poll.events.all fun e => e.Running L.world.now

/-- Whether an event that is handed over has an attempt left. -/
def withinTest (L : Ledger) (a : Action) : Bool :=
  (handedBy? L.world a).all fun event => event.retryCount < MAX_DISPATCH_ATTEMPTS

theorem prompt_of_test {L L' : Ledger} {a : Action} (h : promptTest L a = true) : Prompt L a L' := by
  intro i hi e he
  rw [promptTest, hi, Option.all_some, List.all_eq_true] at h
  exact of_decide_eq_true (h e he)

theorem withinRetries_of_test {L L' : Ledger} {a : Action} (h : withinTest L a = true) :
    WithinRetries L a L' := by
  intro event hevent
  rw [withinTest, hevent, Option.all_some] at h
  exact of_decide_eq_true h

/-- A worker claims the event and its send rejects. -/
def failedCycle (i : WorkerId) (now : Date) : List Action :=
  [.poll i, .claim i now [] ["e"], .enter i true now, .sendRejects i "connection closed", .fail i]

/-- A worker claims the event, hands it over and crashes.  Its lease runs out. -/
def crashedCycle (i : WorkerId) (now : Date) : List Action :=
  [.poll i, .claim i now [] ["e"], .enter i true now, .crash i, .recover (now + 60001),
    .deadLetter (now + 60001)]

/-- Two sends reject, a worker crashes, and two more sends reject. -/
def exhaustRun : List Action :=
  .create "e" 0 lateEvent :: failedCycle "a" 0 ++ failedCycle "a" 1 ++ crashedCycle "b" 2 ++
    failedCycle "a" 60003 ++ failedCycle "a" 60004

/-- The theorem at that run: the event was handed over five times and is given up. -/
theorem along_bounded_exhaustRun :
    machine.Along Bounded Ledger.init exhaustRun ∧
      (machine.run Ledger.init exhaustRun).map (fun L => (L.handed, L.world.status "e"))
        = some (["e", "e", "e", "e", "e"], some .deadLetter) := by
  refine ⟨along_bounded (Machine.along_of_checks (p := fun L a => promptTest L a && withinTest L a)
    ?_ (by decide)), by decide⟩
  intro L a L' h
  rw [Bool.and_eq_true] at h
  exact ⟨prompt_of_test h.1, withinRetries_of_test h.2⟩

/-- Five workers crash one after another, and a sixth takes the event. -/
def spentRun : List Action :=
  .create "e" 0 lateEvent :: crashedCycle "a" 0 ++ crashedCycle "b" 60001 ++
    crashedCycle "c" 120002 ++ crashedCycle "d" 180003 ++ crashedCycle "f" 240004 ++
    [.poll "g", .claim "g" 300005 [] ["e"]]

/-- Recovery puts the event back although its attempts are used up, and it is handed
over a sixth time. -/
theorem not_bounded : ¬ ∀ as, machine.Along Prompt Ledger.init as → machine.Along Bounded Ledger.init as := by
  intro hall
  have hview : ((machine.run Ledger.init spentRun).bind fun L =>
      (machine.step L (.enter "g" true 300005)).map fun L' => L'.handed)
      = some ["e", "e", "e", "e", "e", "e"] := by decide
  obtain ⟨L, L', hrun, hstep, hhanded⟩ := Machine.exists_last hview
  have hprompt : machine.Along Prompt Ledger.init (spentRun ++ [.enter "g" true 300005]) :=
    Machine.along_of_checks (p := promptTest) (fun _ _ _ h => prompt_of_test h) (by decide)
  have hcount := ((hall _ hprompt).last hrun hstep).1 "e"
  rw [hhanded] at hcount
  exact absurd hcount (by decide)

end Ledger

end Vynor.Outbox
