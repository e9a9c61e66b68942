import Vynor.Polling.Leases
import Vynor.Polling.Moves

/-!
# Polling loses nothing

The journal and the cursor are written in one transaction, so a poll that moves
the cursor past an email or an update has journaled it.  Polls may overlap, fail
at any point and save in any order.

The history of a run tells which polls have saved, from which cursor each
started and what it found at the provider.  Every UID between the cursor at the
start and the saved one lies in the range of such a poll (`Complete`).  For a
bot more holds: an update below a saved offset is served before it is
forgotten, so every one of them has an event (`Served`).
-/

namespace Vynor.Polling

open Lib (Machine Covers)
open Journal (HasEvent)
open Email (Mailbox startUid endUid)
open Telegram (Bot updateKey endOffset endOffset_le)

variable {σ ε : Type}

/-- The steps of a run. -/
abbrev History (σ ε : Type) := List (World σ × Action ε × World σ)

/-- A poll that was given this cursor and found the provider so has saved. -/
def Saved (t : History σ ε) (cursor : Option Cursor) (seen : σ) : Prop :=
  ∃ w w' p now eventIds outboxIds, (w, Action.save p now eventIds outboxIds, w') ∈ t ∧
    (w.poll p).stage = .saving cursor seen

/-- The ranges of the polls that have saved. -/
def Reads (P : Provider σ ε) (t : History σ ε) (a b : Int) : Prop :=
  ∃ cursor seen, Saved t cursor seen ∧ P.position cursor = some a ∧
    P.position (some (P.pollInbound seen cursor).2.cursor) = some b

theorem Saved.append {t s : History σ ε} {cursor : Option Cursor} {seen : σ}
    (h : Saved t cursor seen) : Saved (t ++ s) cursor seen := by
  obtain ⟨w, w', p, now, eventIds, outboxIds, hmem, hstage⟩ := h
  exact ⟨w, w', p, now, eventIds, outboxIds, List.mem_append_left _ hmem, hstage⟩

theorem Reads.append {P : Provider σ ε} {t s : History σ ε} {a b : Int} (h : Reads P t a b) :
    Reads P (t ++ s) a b := by
  obtain ⟨cursor, seen, hsaved, ha, hb⟩ := h
  exact ⟨cursor, seen, hsaved.append, ha, hb⟩

/-! ## Every saved poll has journaled -/

/-- The polls that have saved cover everything from the start to each cursor
that is held, and their events are in the journal. -/
structure Complete (P : Provider σ ε) (start : Option Int) (t : History σ ε) (w : World σ) :
    Prop where
  covered : ∀ lo, start = some lo → ∀ c, w.HoldsCursor c →
    ∃ n, P.position c = some n ∧ Covers (Reads P t) lo n
  journaled : ∀ cursor seen, Saved t cursor seen → ∀ e ∈ (P.pollInbound seen cursor).2.events,
    HasEvent w.journal.events w.channel.account.id e.providerEventKey

/-- A fresh world holds the cursor of the channel and no other. -/
theorem World.Fresh.cursor {w : World σ} (h : w.Fresh) {c : Option Cursor}
    (hc : w.HoldsCursor c) : c = w.channel.syncState := by
  cases hc with
  | saved => rfl
  | @polling p _ hs =>
      rw [h p] at hs
      cases hs
  | @saving p _ _ hs =>
      rw [h p] at hs
      cases hs

theorem complete_fresh {P : Provider σ ε} {w : World σ} (h : w.Fresh) :
    Complete P (P.position w.channel.syncState) [] w := by
  constructor
  · intro lo hlo c hc
    rw [h.cursor hc]
    exact ⟨lo, hlo, Lib.covers_refl⟩
  · rintro cursor seen ⟨_, _, _, _, _, _, hmem, _⟩
    cases hmem

theorem complete_step {P : Provider σ ε} {start : Option Int} {t : History σ ε} {w w' : World σ}
    {a : Action ε} (hI : Complete P start t w) (h : step P w a = some w') :
    Complete P start (t ++ [(w, a, w')]) w' := by
  constructor
  · intro lo hlo c hc
    rcases holdsCursor_of_step h hc with hold | ⟨p, now, eventIds, outboxIds, cursor, seen, rfl, hs, rfl⟩
    · obtain ⟨n, hn, hcover⟩ := hI.covered lo hlo c hold
      exact ⟨n, hn, hcover.mono fun _ _ hread => hread.append⟩
    · obtain ⟨n, hn, hcover⟩ := hI.covered lo hlo cursor (.saving hs)
      obtain ⟨n', hn', _⟩ := P.advances seen cursor n hn
      have hsaved : Saved (t ++ [(w, .save p now eventIds outboxIds, w')]) cursor seen :=
        ⟨w, w', p, now, eventIds, outboxIds, by simp, hs⟩
      refine ⟨n', hn', ?_⟩
      exact (hcover.mono fun _ _ hread => hread.append).extend ⟨cursor, seen, hsaved, hn, hn'⟩
  · rintro cursor seen ⟨w1, w2, p, now, eventIds, outboxIds, hmem, hs⟩ e he
    rw [account_of_step h]
    rcases List.mem_append.mp hmem with hold | hnew
    · exact hasEvent_of_step h (hI.journaled cursor seen ⟨_, _, _, _, _, _, hold, hs⟩ e he)
    · obtain ⟨rfl, rfl, rfl⟩ := by simpa using hnew
      exact hasEvent_of_save h hs he

theorem complete_of_run {P : Provider σ ε} {w w' : World σ} {as : List (Action ε)} (h0 : w.Fresh)
    (hrun : (machine P).run w as = some w') :
    Complete P (P.position w.channel.syncState) ((machine P).trace w as) w' :=
  Machine.invariant_trace (M := machine P)
    (fun _ _ _ _ hI hs => complete_step hI hs) (complete_fresh h0) hrun

/-! ## Every update below a saved offset -/

/-- An offset is reached: it is the one at the start or not past the updates
there are, and every update between the two has an event. -/
structure Reached (start : Option Int) (w : World Bot) (n : Int) : Prop where
  bounded : start = some n ∨ ∃ u ∈ w.source.updates, n ≤ (u.1 : Int) + 1
  passed : ∀ u ∈ w.source.updates, (∀ lo, start = some lo → lo ≤ u.1) → (u.1 : Int) < n →
    HasEvent w.journal.events w.channel.account.id (updateKey u.1)

/-- Every offset that may still be saved or was sent is reached. -/
structure Served (start : Option Int) (w : World Bot) : Prop where
  held : ∀ c, w.HoldsCursor c → ∀ n, offset c = some n → Reached start w n
  forgotten : ∀ n, w.source.forgotten = some n → Reached start w n
  seen : ∀ p c s, (w.poll p).stage = .saving c s →
    s.updates <+: w.source.updates ∧ ∀ n, s.forgotten = some n → Reached start w n

/-- An update that arrived later has a larger id. -/
theorem mem_or_lt_of_prefix {s b : Bot} (h : s.updates <+: b.updates) {u : Nat × Payload}
    (hu : u ∈ b.updates) : u ∈ s.updates ∨ ∀ v ∈ s.updates, v.1 < u.1 := by
  obtain ⟨added, hadded⟩ := h
  have hsorted := b.sorted
  rw [← hadded, List.pairwise_append] at hsorted
  rw [← hadded, List.mem_append] at hu
  rcases hu with hold | hnew
  · exact Or.inl hold
  · exact Or.inr fun v hv => hsorted.2.2 v hv u hnew

/-- A reached offset stays reached: what arrives later is not below it. -/
theorem Reached.mono {start : Option Int} {w w' : World Bot} {n : Int} (h : Reached start w n)
    (hgrow : w.source.updates <+: w'.source.updates)
    (hkeep : ∀ key, HasEvent w.journal.events w.channel.account.id key →
      HasEvent w'.journal.events w'.channel.account.id key) : Reached start w' n := by
  constructor
  · rcases h.bounded with hstart | ⟨u, hu, hle⟩
    · exact Or.inl hstart
    · exact Or.inr ⟨u, hgrow.subset hu, hle⟩
  · intro u hu hlo hlt
    rcases mem_or_lt_of_prefix hgrow hu with hold | hlater
    · exact hkeep _ (h.passed u hold hlo hlt)
    · exfalso
      rcases h.bounded with hstart | ⟨v, hv, hle⟩
      · have hge := hlo n hstart
        omega
      · have hvu := hlater v hv
        omega

/-- The updates only grow. -/
theorem updates_grow {w w' : World Bot} {a : Action (Nat × Payload)}
    (h : step telegramProvider w a = some w') : w.source.updates <+: w'.source.updates := by
  cases move_of_step h with
  | provider hsource _ _ _ =>
      simp only [telegramProvider, arriveUpdate] at hsource
      split at hsource
      · simp only [Option.some.injEq] at hsource
        rw [← hsource]
        exact List.prefix_append _ _
      · cases hsource
  | quiet hsource _ _ _ _ _ =>
      simp only [hsource, List.prefix_rfl]
  | asked _ hsource _ _ _ _ =>
      rw [hsource]
      exact List.prefix_rfl
  | save _ hsource _ _ _ _ =>
      simp only [hsource, List.prefix_rfl]

theorem Reached.step {start : Option Int} {w w' : World Bot} {a : Action (Nat × Payload)} {n : Int}
    (hn : Reached start w n) (h : step telegramProvider w a = some w') : Reached start w' n := by
  refine hn.mono (updates_grow h) ?_
  intro key hkey
  rw [account_of_step h]
  exact hasEvent_of_step h hkey

/-- Where a poll that saves ends is reached. -/
theorem reached_of_save {start : Option Int} {w w' : World Bot} {p : PollId} {now : Date}
    {eventIds outboxIds : Nat → Id} {cursor : Option Cursor} {seen : Bot} {n : Int}
    (hI : Served start w)
    (h : step telegramProvider w (.save p now eventIds outboxIds) = some w')
    (hs : (w.poll p).stage = .saving cursor seen) (hn : endOffset seen cursor = some n) :
    Reached start w' n := by
  obtain ⟨hgrown, hforgotten⟩ := hI.seen p cursor seen hs
  have hgrow := hgrown.trans (updates_grow h)
  have hcursor : ∀ m, cursor.bind Cursor.offset = some m → Reached start w' m :=
    fun m hm => (hI.held cursor (.saving hs) m hm).step h
  rcases endOffset_le hn with hstart | ⟨v, hv, hle⟩
  · exact hcursor n hstart
  · refine ⟨Or.inr ⟨v, hgrow.subset hv, hle⟩, ?_⟩
    intro u hu hlo hlt
    rcases mem_or_lt_of_prefix hgrow hu with hseen | hlater
    · -- the poll found the update: it was served, or is below an offset reached before
      by_cases hpending : u ∈ seen.pending (cursor.bind Cursor.offset)
      · obtain ⟨e, he, hkey⟩ := Telegram.exists_event hpending hn hlt
        rw [account_of_step h, ← hkey]
        exact hasEvent_of_save h hs he
      · have hbelow : ∃ m, Reached start w' m ∧ (u.1 : Int) < m := by
          rw [Bot.pending, List.mem_filter, not_and, Bool.and_eq_true, not_and_or] at hpending
          rcases hpending hseen with hf | hf
          · rcases hfo : seen.forgotten with _ | m
            · simp [Telegram.notBelow, hfo] at hf
            · simp only [Telegram.notBelow, hfo, decide_eq_true_eq, not_le] at hf
              exact ⟨m, (hforgotten m hfo).step h, hf⟩
          · rcases ho : cursor.bind Cursor.offset with _ | m
            · simp [Telegram.notBelow, ho] at hf
            · simp only [Telegram.notBelow, ho, decide_eq_true_eq, not_le] at hf
              exact ⟨m, hcursor m ho, hf⟩
        obtain ⟨m, hm, hum⟩ := hbelow
        exact hm.passed u hu hlo hum
    · -- it arrived after the call, so it is not below the end of the poll
      have hvu := hlater v hv
      omega

/-- The later of two offsets is one of them. -/
theorem of_laterOffset {a b : Option Int} {n : Int} (h : Telegram.laterOffset a b = some n) :
    a = some n ∨ b = some n := by
  cases a with
  | none => exact Or.inr h
  | some x =>
      cases b with
      | none => exact Or.inl h
      | some y =>
          rw [Telegram.laterOffset, Option.some.injEq] at h
          rcases le_total x y with hle | hle
          · rw [max_eq_right hle] at h
            exact Or.inr (congrArg some h)
          · rw [max_eq_left hle] at h
            exact Or.inl (congrArg some h)

theorem served_step {start : Option Int} {w w' : World Bot} {a : Action (Nat × Payload)}
    (hI : Served start w) (h : step telegramProvider w a = some w') : Served start w' := by
  have hheld : ∀ c, w'.HoldsCursor c → ∀ n, offset c = some n → Reached start w' n := by
    intro c hc n hn
    rcases holdsCursor_of_step h hc with hold | ⟨p, now, eventIds, outboxIds, cursor, seen, rfl, hs, rfl⟩
    · exact (hI.held c hold n hn).step h
    · exact reached_of_save hI h hs hn
  have hforgotten : ∀ n, w.source.forgotten = some n → Reached start w' n :=
    fun n hn => (hI.forgotten n hn).step h
  have hseen : ∀ p c s, (w.poll p).stage = .saving c s →
      s.updates <+: w'.source.updates ∧ ∀ n, s.forgotten = some n → Reached start w' n := by
    intro p c s hs
    obtain ⟨hgrown, hreached⟩ := hI.seen p c s hs
    exact ⟨hgrown.trans (updates_grow h), fun n hn => (hreached n hn).step h⟩
  cases move_of_step h with
  | provider hsource _ _ hpoll =>
      refine ⟨hheld, ?_, fun p c s hs => hseen p c s (by rwa [hpoll] at hs)⟩
      intro n hn
      simp only [telegramProvider, arriveUpdate] at hsource
      split at hsource
      · simp only [Option.some.injEq] at hsource
        rw [← hsource] at hn
        exact hforgotten n hn
      · cases hsource
  | quiet hsource _ _ _ _ hsaving =>
      exact ⟨hheld, fun n hn => hforgotten n (hsource ▸ hn),
        fun p c s hs => hseen p c s (hsaving p c s hs)⟩
  | asked hcursor hsource _ _ _ hsaving =>
      refine ⟨hheld, ?_, ?_⟩
      · intro n hn
        rw [hsource] at hn
        rcases of_laterOffset hn with hold | hsent
        · exact hforgotten n hold
        · exact (hI.held _ hcursor n hsent).step h
      · intro p c s hs
        rcases hsaving p c s hs with hold | ⟨_, rfl⟩
        · exact hseen p c s hold
        · exact ⟨updates_grow h, hforgotten⟩
  | save _ hsource _ _ _ hsaving =>
      exact ⟨hheld, fun n hn => hforgotten n (hsource ▸ hn),
        fun p c s hs => hseen p c s (hsaving p c s hs)⟩

theorem served_fresh {w : World Bot} (h : w.Fresh) (hnew : w.source.forgotten = none) :
    Served (offset w.channel.syncState) w := by
  constructor
  · intro c hc n hn
    rw [h.cursor hc] at hn
    refine ⟨Or.inl hn, ?_⟩
    intro u _ hlo hlt
    exact absurd (hlo n hn) (not_le.mpr hlt)
  · intro n hn
    rw [hnew] at hn
    cases hn
  · intro p c s hs
    rw [h p] at hs
    cases hs

/-! ## Nothing is lost -/

/-- The range of a poll of the mailbox holds the UID. -/
def InRange (uidValidity : String) (cursor : Option Cursor) (box : Mailbox) (uid : Int) : Prop :=
  startUid uidValidity box cursor < uid ∧ uid ≤ endUid uidValidity box cursor

/-- Every UID after the cursor at the start and up to the saved one lies in the
range of a poll that has saved. -/
theorem exists_poll_of_uid {js : Email.Runtime} {uidValidity : String} {w w' : World Mailbox}
    {as : List (Action MailEvent)} (h0 : w.Fresh)
    (hrun : (machine (emailProvider js uidValidity)).run w as = some w') {lo hi uid : Int}
    (hlo : lastUid uidValidity w.channel.syncState = some lo)
    (hhi : lastUid uidValidity w'.channel.syncState = some hi) (hgt : lo < uid) (hle : uid ≤ hi) :
    ∃ cursor box, Saved ((machine (emailProvider js uidValidity)).trace w as) cursor box ∧
      InRange uidValidity cursor box uid := by
  obtain ⟨n, hn, hcover⟩ := (complete_of_run h0 hrun).covered lo hlo _ .saved
  have hnhi : n = hi := Option.some.inj (hn.symm.trans hhi)
  obtain ⟨a, b, ⟨cursor, box, hsaved, ha, hb⟩, hau, hub⟩ := hcover uid hgt (hnhi ▸ hle)
  refine ⟨cursor, box, hsaved, ?_, ?_⟩
  · rw [startUid_of_lastUid ha]
    exact hau
  · have hend : endUid uidValidity box cursor = b := by
      simpa [emailProvider, lastUid, Email.pollInbound_cursor] using hb
    rw [hend]
    exact hub

/-- An email that a poll found in its range has an event once the poll has
saved. -/
theorem hasEvent_of_inRange {js : Email.Runtime} {uidValidity : String} {w w' : World Mailbox}
    {as : List (Action MailEvent)} (h0 : w.Fresh)
    (hrun : (machine (emailProvider js uidValidity)).run w as = some w') {cursor : Option Cursor}
    {box : Mailbox} (hsaved : Saved ((machine (emailProvider js uidValidity)).trace w as) cursor box)
    {m : Email.Mail} (hm : m ∈ box.mails) (hrange : InRange uidValidity cursor box m.uid) :
    HasEvent w'.journal.events w'.channel.account.id (m.key js uidValidity) := by
  obtain ⟨e, he, hkey⟩ := Email.exists_event js uidValidity box cursor hm hrange.1 hrange.2
  rw [← hkey]
  exact (complete_of_run h0 hrun).journaled cursor box hsaved e he

/-- Every update from the offset at the start and below the saved one has an
event. -/
theorem hasEvent_of_below {w w' : World Bot} {as : List (Action (Nat × Payload))} (h0 : w.Fresh)
    (hnew : w.source.forgotten = none) (hrun : (machine telegramProvider).run w as = some w')
    {n : Int} (hn : offset w'.channel.syncState = some n) {u : Nat × Payload}
    (hu : u ∈ w'.source.updates) (hlo : ∀ lo, offset w.channel.syncState = some lo → lo ≤ u.1)
    (hlt : (u.1 : Int) < n) :
    HasEvent w'.journal.events w'.channel.account.id (updateKey u.1) := by
  have hserved : Served (offset w.channel.syncState) w' :=
    Machine.invariant (M := machine telegramProvider)
      (I := Served (offset w.channel.syncState)) (fun _ _ _ hI hs => served_step hI hs)
      (served_fresh h0 hnew) hrun
  exact (hserved.held _ .saved n hn).passed u hu hlo hlt

/-- Every email after the cursor at the start and up to the saved one that was
there during the poll that covers it, and every update below a saved offset, is
journaled under its key. -/
theorem polling_loses_no_message :
    (∀ (js : Email.Runtime) (uidValidity : String) (w w' : World Mailbox)
        (as : List (Action MailEvent)), w.Fresh →
      (machine (emailProvider js uidValidity)).run w as = some w' →
      ∀ lo hi uid, lastUid uidValidity w.channel.syncState = some lo →
        lastUid uidValidity w'.channel.syncState = some hi → lo < uid → uid ≤ hi →
        (∃ cursor box, Saved ((machine (emailProvider js uidValidity)).trace w as) cursor box ∧
          InRange uidValidity cursor box uid) ∧
        ∀ cursor box, Saved ((machine (emailProvider js uidValidity)).trace w as) cursor box →
          InRange uidValidity cursor box uid → ∀ m ∈ box.mails, m.uid = uid →
          HasEvent w'.journal.events w'.channel.account.id (m.key js uidValidity)) ∧
    (∀ (w w' : World Bot) (as : List (Action (Nat × Payload))), w.Fresh →
      w.source.forgotten = none → (machine telegramProvider).run w as = some w' →
      ∀ n, offset w'.channel.syncState = some n → ∀ u ∈ w'.source.updates,
        (∀ lo, offset w.channel.syncState = some lo → lo ≤ u.1) → (u.1 : Int) < n →
        HasEvent w'.journal.events w'.channel.account.id (updateKey u.1)) := by
  constructor
  · intro js uidValidity w w' as h0 hrun lo hi uid hlo hhi hgt hle
    refine ⟨exists_poll_of_uid h0 hrun hlo hhi hgt hle, ?_⟩
    rintro cursor box hsaved hrange m hm rfl
    exact hasEvent_of_inRange h0 hrun hsaved hm hrange
  · intro w w' as h0 hnew hrun n hn u hu hlo hlt
    exact hasEvent_of_below h0 hnew hrun hn hu hlo hlt

/-- A bot with two updates that has not been polled. -/
def botStart : World Bot where
  channel := { account := exampleChannel, syncState := none }
  now := 0
  journal := ⟨.empty, .empty⟩
  source := ⟨[(7, [("text", "hello")]), (9, [("text", "again")])], none, by decide⟩
  poll := fun _ => {}

/-- One poll of the bot, and another one that fails after it was served. -/
def botPolls : List (Action (Nat × Payload)) :=
  [.lease 0 0, .fetch 0, .save 0 100 (fun n => "event-" ++ toString n) (fun n => "outbox-" ++ toString n),
    .provider (12, [("text", "third")]), .lease 1 200, .fetch 1, .saveFails 1, .release 1]

/-- The poll of the mailbox covers email 6, and after the polls of the bot
update 9 has an event. -/
theorem polling_loses_no_message_examples :
    (∃ w', (machine exampleProvider).run mailboxStart (slowPoll ++ [savesAt 0 1000]) = some w' ∧
      ∃ cursor box, Saved ((machine exampleProvider).trace mailboxStart
        (slowPoll ++ [savesAt 0 1000])) cursor box ∧ InRange "1" cursor box 6) ∧
    ∃ w', (machine telegramProvider).run botStart botPolls = some w' ∧
      HasEvent w'.journal.events w'.channel.account.id (updateKey (9 : Nat)) := by
  have hmail : ((machine exampleProvider).run mailboxStart (slowPoll ++ [savesAt 0 1000])).map
      (fun w => lastUid "1" w.channel.syncState) = some (some 6) := by decide
  have hbot : ((machine telegramProvider).run botStart botPolls).map
      (fun w => (offset w.channel.syncState, w.source.updates.map Prod.fst)) =
      some (some 10, [7, 9, 12]) := by decide
  obtain ⟨w, hw, hhi⟩ := Option.map_eq_some_iff.mp hmail
  obtain ⟨b, hb, hview⟩ := Option.map_eq_some_iff.mp hbot
  rw [Prod.mk.injEq] at hview
  refine ⟨⟨w, hw, ?_⟩, b, hb, ?_⟩
  · exact (polling_loses_no_message.1 exampleRuntime "1" mailboxStart w _ (fun _ => rfl) hw 5 6 6 rfl
      hhi (by decide) (by decide)).1
  · have hmem : 9 ∈ b.source.updates.map Prod.fst := by
      rw [hview.2]
      decide
    obtain ⟨u, hu, hid⟩ := List.mem_map.mp hmem
    rw [← hid]
    refine polling_loses_no_message.2 botStart b _ (fun _ => rfl) rfl hb 10 hview.1 u hu ?_ ?_
    · intro lo hlo
      cases hlo
    · rw [hid]
      decide

end Vynor.Polling
