import Vynor.Polling.Providers

/-!
# Leases exclude each other

The lease statement grants a channel only while no lease on it is open.  The
two later writes of a poll name the channel by its id alone, so a poll that
outlives its lease clears whatever lease the channel carries by then, and
overwrites the cursor that was saved in the meantime.

A run is *timely* when each of these writes finds the channel without a lease
or with the lease of its own poll, and a saving one finds the cursor its poll
was given.  In a timely run at most one poll holds an open lease, each poll
clears only its own, and the cursor does not go back.
-/

namespace Vynor.Polling

open Lib (Machine)

variable {σ ε : Type}

/-- The poll holds a lease that it was granted, has not given up, and that has
not expired. -/
def World.Holds (w : World σ) (p : PollId) : Prop :=
  ∃ expiresAt, (w.poll p).lease = some expiresAt ∧ w.now ≤ expiresAt

/-- At most one poll holds an open lease. -/
def World.OneHolder (w : World σ) : Prop := ∀ p q, w.Holds p → w.Holds q → p = q

/-- A lease that is cleared or shortened is the lease of the poll that does
it. -/
def ClearsOwn (w : World σ) (a : Action ε) (w' : World σ) : Prop :=
  ∀ e, w.channel.syncLeaseExpiresAt = some e →
    (∀ e', w'.channel.syncLeaseExpiresAt = some e' → e' < e) →
    ∃ p, a.writer? = some p ∧ (w.poll p).lease = some e

/-- The saved cursor does not go back. -/
def CursorKept (P : Provider σ ε) (w w' : World σ) : Prop :=
  ∀ n, P.position w.channel.syncState = some n →
    ∃ n', P.position w'.channel.syncState = some n' ∧ n ≤ n'

/-- What a step must not do: clear the lease of another poll, or take the cursor
back. -/
def Orderly (P : Provider σ ε) (w : World σ) (a : Action ε) (w' : World σ) : Prop :=
  ClearsOwn w a w' ∧ CursorKept P w w'

/-- The channel carries no lease, or the lease of this poll. -/
def World.Unclaimed (w : World σ) (p : PollId) : Prop :=
  w.channel.syncLeaseExpiresAt = none ∨ w.channel.syncLeaseExpiresAt = (w.poll p).lease

/-- The channel carries the cursor this poll was given. -/
def World.SameCursor (w : World σ) (p : PollId) : Prop :=
  ∀ cursor seen, (w.poll p).stage = .saving cursor seen → w.channel.syncState = cursor

/-- A poll writes the channel only as long as no other poll has taken it. -/
def Timely (w : World σ) : Action ε → World σ → Prop
  | .save p _ _ _, _ => w.Unclaimed p ∧ w.SameCursor p
  | .release p, _ => w.Unclaimed p
  | _, _ => True

/-- A test for steps that are timely: the lease of the channel is absent or that
of the poll, and the poll saves over the cursor it was given. -/
def timelyCheck (w : World σ) : Action ε → Bool
  | .save p _ _ _ =>
      (w.channel.syncLeaseExpiresAt = none || w.channel.syncLeaseExpiresAt = (w.poll p).lease) &&
        match (w.poll p).stage with
        | .saving cursor _ => w.channel.syncState = cursor
        | _ => true
  | .release p =>
      w.channel.syncLeaseExpiresAt = none || w.channel.syncLeaseExpiresAt = (w.poll p).lease
  | _ => true

theorem unclaimed_of_check {w : World σ} {p : PollId}
    (h : (w.channel.syncLeaseExpiresAt = none ||
      w.channel.syncLeaseExpiresAt = (w.poll p).lease : Bool) = true) : w.Unclaimed p := by
  simpa [World.Unclaimed] using h

theorem timely_of_check (w : World σ) (a : Action ε) (w' : World σ)
    (h : timelyCheck w a = true) : Timely w a w' := by
  cases a with
  | save p now eventIds outboxIds =>
      rw [timelyCheck, Bool.and_eq_true] at h
      refine ⟨unclaimed_of_check h.1, ?_⟩
      intro cursor seen hstage
      have hcursor := h.2
      rw [hstage] at hcursor
      exact of_decide_eq_true hcursor
  | release p => exact unclaimed_of_check h
  | _ => trivial

/-- What holds in a timely run: an open lease is the one the channel carries,
and only one poll has it. -/
structure Exclusive (w : World σ) : Prop where
  carried : ∀ p e, (w.poll p).lease = some e → w.now ≤ e → w.channel.syncLeaseExpiresAt = some e
  one : w.OneHolder

theorem exclusive_fresh {w : World σ} (h : w.Fresh) : Exclusive w := by
  constructor
  · intro p e he
    rw [h p] at he
    cases he
  · rintro p q ⟨e, he, _⟩
    rw [h p] at he
    cases he

/-- The polls keep their leases while time passes. -/
theorem Exclusive.same {w w' : World σ} (hI : Exclusive w) (hchannel : w'.channel = w.channel)
    (hnow : w.now ≤ w'.now) (hlease : ∀ q, (w'.poll q).lease = (w.poll q).lease) :
    Exclusive w' := by
  have hheld : ∀ p, w'.Holds p → w.Holds p := by
    rintro p ⟨e, he, hopen⟩
    exact ⟨e, (hlease p).symm.trans he, Int.le_trans hnow hopen⟩
  constructor
  · intro p e he hopen
    rw [hchannel]
    exact hI.carried p e ((hlease p).symm.trans he) (Int.le_trans hnow hopen)
  · intro p q hp hq
    exact hI.one p q (hheld p hp) (hheld q hq)

/-- A free channel carries no open lease. -/
theorem Channel.lease_of_isFree {c : Channel} {now e : Date} (h : c.isFree now = true)
    (he : c.syncLeaseExpiresAt = some e) : e < now := by
  rw [Channel.isFree, he, Bool.and_eq_true] at h
  exact of_decide_eq_true h.2

/-- A channel that is granted had no open lease, so the new one is the only
one. -/
theorem Exclusive.lease {w w' : World σ} {p : PollId} {now : Date} {x : Poll σ}
    (hI : Exclusive w) (hnow : w.now ≤ now) (hfree : w.channel.isFree now = true)
    (hx : x.lease = some (now + LEASE_MS))
    (hw : w' = { w.setPoll p x with channel := w.channel.leased now, now := now }) :
    Exclusive w' := by
  subst hw
  have hother : ∀ q e, q ≠ p → (w.poll q).lease = some e → ¬ now ≤ e := by
    intro q e _ he hopen
    have hcarried := hI.carried q e he (Int.le_trans hnow hopen)
    exact absurd (Channel.lease_of_isFree hfree hcarried) (Int.not_lt.mpr hopen)
  have honly : ∀ q e, (((w.setPoll p x).poll q).lease = some e) → now ≤ e → q = p := by
    intro q e he hopen
    by_contra hne
    rw [World.setPoll_other w p x hne] at he
    exact hother q e hne he hopen
  constructor
  · intro q e he hopen
    rw [honly q e he hopen] at he
    rw [World.setPoll_self, hx] at he
    exact he
  · rintro q r ⟨e, he, hopen⟩ ⟨e', he', hopen'⟩
    exact (honly q e he hopen).trans (honly r e' he' hopen').symm

/-- A poll that gives up its lease leaves the channel without one. -/
theorem Exclusive.clear {w w' : World σ} {p : PollId} {x : Poll σ} (hI : Exclusive w)
    (hun : w.Unclaimed p) (hx : x.lease = none) (hnow : w'.now = w.now)
    (hpoll : w'.poll = (w.setPoll p x).poll) : Exclusive w' := by
  have hnone : ∀ q e, (w'.poll q).lease = some e → ¬ w'.now ≤ e := by
    intro q e he hopen
    rw [hpoll] at he
    rw [hnow] at hopen
    by_cases hq : q = p
    · rw [hq, World.setPoll_self, hx] at he
      cases he
    · rw [World.setPoll_other w p x hq] at he
      have hcarried := hI.carried q e he hopen
      rcases hun with hnolease | hown
      · rw [hnolease] at hcarried
        cases hcarried
      · exact hq (hI.one q p ⟨e, he, hopen⟩ ⟨e, hown ▸ hcarried, hopen⟩)
  constructor
  · intro q e he hopen
    exact absurd hopen (hnone q e he)
  · rintro q r ⟨e, he, hopen⟩
    exact absurd hopen (hnone q e he)

theorem exclusive_step {P : Provider σ ε} {w w' : World σ} {a : Action ε} (hI : Exclusive w)
    (h : step P w a = some w') (ht : Timely w a w') : Exclusive w' := by
  cases channel_step h with
  | same _ hchannel hnow hlease => exact hI.same hchannel hnow hlease
  | lease hnow hfree hw => exact hI.lease hnow hfree rfl hw
  | save _ _ hnow hpoll => exact hI.clear ht.1 rfl hnow hpoll
  | release _ _ hnow hpoll => exact hI.clear ht rfl hnow hpoll

/-- A write that finds no lease of another poll clears at most its own. -/
theorem clearsOwn_of_unclaimed {w w' : World σ} {a : Action ε} {p : PollId}
    (hwriter : a.writer? = some p) (hun : w.Unclaimed p) : ClearsOwn w a w' := by
  intro e he _
  rcases hun with hnone | hown
  · rw [hnone] at he
    cases he
  · exact ⟨p, hwriter, hown.symm.trans he⟩

/-- A step that clears no lease keeps or lengthens the one there is, and keeps
the cursor. -/
theorem orderly_of_quiet {P : Provider σ ε} {w w' : World σ} {a : Action ε}
    (h : step P w a = some w') (hquiet : a.clearer? = none) : Orderly P w a w' := by
  cases channel_step h with
  | same _ hchannel _ _ =>
      refine ⟨?_, ?_⟩
      · intro e he hcleared
        exact absurd (hcleared e (hchannel ▸ he)) (Int.lt_irrefl e)
      · intro n hn
        exact ⟨n, hchannel ▸ hn, Int.le_refl n⟩
  | @lease p now hnow hfree hw =>
      subst hw
      refine ⟨?_, ?_⟩
      · -- a lease that is granted ends later than one that has expired
        intro e he hcleared
        have hexpired := Channel.lease_of_isFree hfree he
        have hshort := hcleared _ rfl
        have hlater := Int.lt_add_of_pos_right (b := LEASE_MS) now (by decide)
        exact absurd (Int.lt_trans hexpired (Int.lt_trans hlater hshort)) (Int.lt_irrefl e)
      · intro n hn
        exact ⟨n, hn, Int.le_refl n⟩
  | save _ _ _ _ => cases hquiet
  | release _ _ _ _ => cases hquiet

theorem orderly_step {P : Provider σ ε} {w w' : World σ} {a : Action ε}
    (h : step P w a = some w') (ht : Timely w a w') : Orderly P w a w' := by
  cases channel_step h with
  | same hquiet _ _ _ => exact orderly_of_quiet h hquiet
  | lease _ _ _ => exact orderly_of_quiet h rfl
  | save hstage hchannel _ _ =>
      refine ⟨clearsOwn_of_unclaimed rfl ht.1, ?_⟩
      intro n hn
      rw [ht.2 _ _ hstage] at hn
      obtain ⟨n', hn', hle⟩ := P.advances _ _ n hn
      exact ⟨n', by rw [hchannel]; exact hn', hle⟩
  | release _ hchannel _ _ =>
      refine ⟨clearsOwn_of_unclaimed rfl ht, ?_⟩
      intro n hn
      exact ⟨n, by rw [hchannel]; exact hn, Int.le_refl n⟩

/-- In a timely run at most one poll holds an open lease at any time, a poll
clears only its own lease, and the saved cursor does not go back. -/
theorem leases_exclude (P : Provider σ ε) {w w' : World σ} {as : List (Action ε)} (h0 : w.Fresh)
    (ht : (machine P).Along Timely w as) (hrun : (machine P).run w as = some w') :
    w'.OneHolder ∧ (machine P).Along (Orderly P) w as := by
  have hinv : Exclusive w' :=
    Machine.invariant_along (M := machine P) (P := Timely) (I := Exclusive)
      (fun _ _ _ hI hs hP => exclusive_step hI hs hP) (exclusive_fresh h0) ht hrun
  refine ⟨hinv.one, ?_⟩
  exact Machine.along_of_along (M := machine P) (P := Timely) (I := Exclusive)
    (fun _ _ _ hI hs hP => ⟨exclusive_step hI hs hP, orderly_step hs hP⟩) (exclusive_fresh h0) ht

/-- A write that clears the lease clears only its own exactly when it finds no
lease of another poll. -/
theorem clearsOwn_iff {P : Provider σ ε} {w w' : World σ} {a : Action ε} {p : PollId}
    (h : step P w a = some w') (hp : a.clearer? = some p) : ClearsOwn w a w' ↔ w.Unclaimed p := by
  obtain ⟨hcleared, hwriter⟩ : w'.channel.syncLeaseExpiresAt = none ∧ a.writer? = some p := by
    cases channel_step h with
    | same hquiet _ _ _ =>
        rw [hquiet] at hp
        cases hp
    | lease _ _ _ => cases hp
    | save _ hchannel _ _ => exact ⟨by rw [hchannel]; rfl, hp⟩
    | release _ hchannel _ _ => exact ⟨by rw [hchannel]; rfl, hp⟩
  constructor
  · intro hown
    rcases hlease : w.channel.syncLeaseExpiresAt with _ | e
    · exact Or.inl hlease
    · obtain ⟨q, hq, he⟩ := hown e hlease fun e' he' => by
        rw [hcleared] at he'
        cases he'
      rw [hwriter, Option.some.injEq] at hq
      rw [← hq] at he
      exact Or.inr (hlease.trans he.symm)
  · exact clearsOwn_of_unclaimed hwriter

/-- Every poll clears only its own lease exactly when each of these writes finds
no lease of another poll. -/
theorem along_clearsOwn_iff (P : Provider σ ε) {w : World σ} {as : List (Action ε)} :
    (machine P).Along ClearsOwn w as ↔
      (machine P).Along (fun w a _ => ∀ p, a.clearer? = some p → w.Unclaimed p) w as := by
  refine Machine.along_iff (M := machine P) (I := fun _ => True) (fun _ _ _ _ _ => trivial) ?_ trivial
  intro w a w' _ hs
  constructor
  · intro hown p hp
    exact (clearsOwn_iff hs hp).mp hown
  · intro hun
    rcases hp : a.clearer? with _ | p
    · exact (orderly_of_quiet hs hp).1
    · exact (clearsOwn_iff hs hp).mpr (hun p hp)

/-! ## Two polls of one mailbox -/

/-- The runtime functions are not called for mails without a Message-ID. -/
def exampleRuntime : Email.Runtime := ⟨id, id⟩

def exampleProvider : Provider Email.Mailbox MailEvent := emailProvider exampleRuntime "1"

/-- An email without a Message-ID. -/
def exampleMail (uid : Int) : Email.Mail := ⟨uid, some 1000, none, { messageId := none }⟩

/-- A mailbox whose emails up to UID 5 have been polled. -/
def mailboxStart : World Email.Mailbox where
  channel :=
    { account := exampleChannel
      syncState := some { uidValidity := some "1", lastUid := some 5 } }
  now := 0
  journal := ⟨.empty, .empty⟩
  source := ⟨6, [], .nil, by simp⟩
  poll := fun _ => {}

/-- Poll `p` saves what it has fetched. -/
def savesAt (p : PollId) (now : Date) : Action MailEvent :=
  .save p now (fun n => "event-" ++ toString p ++ "-" ++ toString n)
    (fun n => "outbox-" ++ toString p ++ "-" ++ toString n)

/-- Poll 0 is granted the channel for two minutes and fetches email 6. -/
def slowPoll : List (Action MailEvent) :=
  [.lease 0 0, .provider (.arrive (exampleMail 6)), .fetch 0]

/-- Its lease runs out.  Poll 1 fetches and saves emails 6 and 7, and poll 2 is
granted the channel. -/
def overtaken : List (Action MailEvent) :=
  slowPoll ++ [.lease 1 120001, .provider (.arrive (exampleMail 7)), .fetch 1, savesAt 1 120001,
    .lease 2 120002]

/-- A poll that ends in its lease leaves the cursor after its emails. -/
theorem leases_exclude_slowPoll : ∃ w, (machine exampleProvider).run mailboxStart
      (slowPoll ++ [savesAt 0 1000]) = some w ∧
    w.OneHolder ∧ (machine exampleProvider).Along (Orderly exampleProvider) mailboxStart
      (slowPoll ++ [savesAt 0 1000]) := by
  have hrun : (((machine exampleProvider).run mailboxStart (slowPoll ++ [savesAt 0 1000])).map
      fun w => lastUid "1" w.channel.syncState) = some (some 6) := by decide
  obtain ⟨w, hw, _⟩ := Option.map_eq_some_iff.mp hrun
  have htimely : (machine exampleProvider).Along Timely mailboxStart
      (slowPoll ++ [savesAt 0 1000]) := by
    refine Machine.along_of_checks (p := timelyCheck) timely_of_check ?_
    decide
  exact ⟨w, hw, leases_exclude exampleProvider (fun _ => rfl) htimely hw⟩

/-- Poll 0 saves after poll 1: it clears the lease of poll 2, so that poll 3 is
granted the channel as well, and takes the cursor from 7 back to 6. -/
theorem leases_overlap : ∃ (as : List (Action MailEvent)) (w : World Email.Mailbox),
    mailboxStart.Fresh ∧ (machine exampleProvider).run mailboxStart as = some w ∧
    ¬ w.OneHolder ∧ ¬ (machine exampleProvider).Along ClearsOwn mailboxStart as ∧
    ¬ (machine exampleProvider).Along (fun w _ w' => CursorKept exampleProvider w w')
      mailboxStart as := by
  have hrun : (((machine exampleProvider).run mailboxStart
      (overtaken ++ [savesAt 0 120003, .lease 3 120004])).map
        fun w => ((w.poll 2).lease, (w.poll 3).lease, w.now)) =
      some (some 240002, some 240004, 120004) := by decide
  have hlate : (((machine exampleProvider).run mailboxStart overtaken).bind fun w =>
      ((machine exampleProvider).step w (savesAt 0 120003)).map fun w' =>
        ((w.channel.syncLeaseExpiresAt, (w.poll 0).lease, lastUid "1" w.channel.syncState),
          (w'.channel.syncLeaseExpiresAt, lastUid "1" w'.channel.syncState))) =
      some ((some 240002, some 120000, some 7), (none, some 6)) := by decide
  obtain ⟨w, hw, hview⟩ := Option.map_eq_some_iff.mp hrun
  obtain ⟨w1, w2, hw1, hw2, hviews⟩ := Machine.exists_last hlate
  simp only [Prod.mk.injEq] at hview hviews
  obtain ⟨h2, h3, hnow⟩ := hview
  obtain ⟨⟨hlease, hown, hcursor⟩, hlease', hcursor'⟩ := hviews
  refine ⟨_, w, fun _ => rfl, hw, ?_, ?_, ?_⟩
  · intro hone
    have heq := hone 2 3 ⟨_, h2, by rw [hnow]; decide⟩ ⟨_, h3, by rw [hnow]; decide⟩
    cases heq
  · intro hall
    obtain ⟨p, hp, he⟩ := (hall.of_append hw1 w2 hw2).1 _ hlease fun e he => by
      rw [hlease'] at he
      cases he
    cases hp
    rw [hown] at he
    cases he
  · intro hall
    obtain ⟨n, hn, hle⟩ := (hall.of_append hw1 w2 hw2).1 7 hcursor
    rw [show exampleProvider.position w2.channel.syncState = some 6 from hcursor'] at hn
    cases hn
    exact absurd hle (by decide)

end Vynor.Polling
