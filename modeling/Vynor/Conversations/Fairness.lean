import Vynor.Conversations.Places
import Vynor.Conversations.Requests
import Vynor.Lib.Turns

/-!
# Fair assignment

Runs in which ingests come one after the other and an inbox has a fixed pool of
agents, without a cap and without preferred agents (`Undisturbed`).  The choice
of an ingest is then still right when it commits, as nothing is assigned in
between (`Calm`).  Under round robin the new conversations of the channel rotate
through the pool, and under least assigned each goes to an agent with the fewest
open conversations (`assignment_fair`).
-/

namespace Vynor.Conversations.Assignment

open Lib (Table Machine Json)
open Lib.Turns (Rotates Due Even)

/-- An inbox and its pool of agents. -/
structure Inbox where
  channelId : Id
  workspaceId : Id
  method : ChatDistributionMethod
  pool : List Id

/-- The request of an ingest that is under way. -/
def pending? (c : Call) : Option IngestRequest := if c.ended then none else c.request?

/-- No cap, and no preferred agent. -/
structure Inbox.Plain (S : Inbox) (settings : InboxSettings) : Prop where
  method : settings.distributionMethod = S.method
  noCap : settings.maxConversationsEnabled = false
  noPreferred : settings.preferredAgent = false

/-- A step that leaves the distribution of an inbox undisturbed.  An ingest
begins when no other is under way, and finds the settings and the pool of the
inbox.  No conversation is reassigned or changes its status, no other channel
gives one to an agent of the pool, and a new conversation of the channel is
created later than the ones before it, and after the epoch. -/
structure Undisturbed (S : Inbox) (w : World) (a : Action) (w' : World) : Prop where
  serial : ∀ i request settings, a = .ingest i request settings →
    ∀ j, pending? (w.base.call j) = none
  settings : ∀ i request settings, a = .ingest i request settings →
    request.channel.id = S.channelId →
      request.channel.workspaceId = S.workspaceId ∧ S.Plain (readInboxSettings settings)
  members : ∀ i candidates tx, a = .readMembers i candidates → w.creating? i = some tx →
    tx.request.channel.id = S.channelId → candidates.Perm S.pool
  steady : Steady w.base.db.conversations w'.base.db.conversations
  others : ∀ r, IsNew w.base.db.conversations w'.base.db.conversations r →
    r.providerAccountId ≠ S.channelId → ∀ m ∈ S.pool, r.assigneeMembershipId ≠ some m
  increasing : ∀ r, IsNew w.base.db.conversations w'.base.db.conversations r →
    r.providerAccountId = S.channelId → 0 < r.createdAt ∧
      ∀ r0 ∈ w.base.db.conversations.rows, r0.providerAccountId = S.channelId →
        r0.createdAt < r.createdAt

/-! ## Choices that are still right -/

/-- The method of the inbox may choose this agent. -/
def Inbox.Prefers (S : Inbox) (conversations : Conversations) (m : Id) : Prop :=
  match S.method with
  | .roundRobin => ∀ b ∈ S.pool,
      lastAssigned conversations S.channelId m ≤ lastAssigned conversations S.channelId b
  | .leastAssigned => ∀ b ∈ S.pool,
      openCounts conversations S.workspaceId m ≤ openCounts conversations S.workspaceId b
  | .manual => False

/-- A choice is what the conversations as they are lead to. -/
def Inbox.Sound (S : Inbox) (conversations : Conversations) : Choice → Prop
  | .start => True
  | .listed candidates => candidates.Perm S.pool
  | .preferring _ _ _ => False
  | .recalling _ first rest => S.method = .roundRobin ∧ (first :: rest).Perm S.pool
  | .unassigned => S.pool = []
  | .chosen _ m => m ∈ S.pool ∧ S.Prefers conversations m

section Sound

variable {S : Inbox} {conversations conversations' : Conversations}

/-- Whom a method may choose depends on the places only. -/
theorem Inbox.Prefers.congr (h : places conversations' = places conversations) {m : Id}
    (hm : S.Prefers conversations m) : S.Prefers conversations' m := by
  unfold Inbox.Prefers at hm ⊢
  split
  · next hmethod =>
      simp only [hmethod, lastAssigned_eq] at hm ⊢
      rw [h]
      exact hm
  · next hmethod =>
      simp only [hmethod, openCounts_eq] at hm ⊢
      rw [h]
      exact hm
  · next hmethod =>
      simp only [hmethod] at hm

theorem Inbox.Sound.congr (h : places conversations' = places conversations) {c : Choice}
    (hc : S.Sound conversations c) : S.Sound conversations' c := by
  cases c with
  | chosen load m => exact ⟨hc.1, hc.2.congr h⟩
  | _ => exact hc

/-- What `reduce` leaves ranks lowest. -/
theorem reduceLeast_le (rank : Id → Int) (ids : List Id) :
    ∀ best, ∀ b ∈ best :: ids, rank (reduceLeast rank best ids) ≤ rank b := by
  induction ids with
  | nil =>
      intro best b hb
      rw [List.mem_singleton.mp hb]
      exact Int.le_refl _
  | cons id ids ih =>
      intro best b hb
      have hrest := ih (if rank id < rank best then id else best)
      have hkept := hrest _ List.mem_cons_self
      rw [reduceLeast]
      rcases List.mem_cons.mp hb with rfl | hb
      · refine Int.le_trans hkept ?_
        split
        · next hlt => exact Int.le_of_lt hlt
        · exact Int.le_refl _
      · rcases List.mem_cons.mp hb with rfl | hb
        · refine Int.le_trans hkept ?_
          split
          · exact Int.le_refl _
          · next hnot => exact Int.not_lt.mp hnot
        · exact hrest b (List.mem_cons_of_mem _ hb)

variable {settings : InboxSettings}

theorem sound_afterMembers (hmethod : S.method ≠ .manual) (hplain : S.Plain settings)
    {candidates : List Id} (h : candidates.Perm S.pool) :
    S.Sound conversations (afterMembers settings candidates) := by
  rw [afterMembers, hplain.method, if_neg hmethod]
  split
  · next hnil =>
      rw [hnil] at h
      exact h.nil_eq.symm
  · exact h

/-- Without a cap all candidates are left, and without a preferred agent the
method chooses among them. -/
theorem sound_afterCounts (hmethod : S.method ≠ .manual) (hplain : S.Plain settings)
    {candidates : List Id} (h : candidates.Perm S.pool) :
    S.Sound conversations
      (afterCounts settings candidates (openCounts conversations S.workspaceId)) := by
  have havailable : available settings candidates (openCounts conversations S.workspaceId) =
      candidates := by
    rw [available, hplain.noCap, if_neg Bool.false_ne_true]
  rw [afterCounts, havailable]
  cases candidates with
  | nil => exact h.nil_eq.symm
  | cons first rest =>
      simp only [hplain.noPreferred, Bool.false_eq_true, if_false, afterPreference, hplain.method]
      split
      · next hleast =>
          have hrank := reduceLeast_le
            (fun id => (openCounts conversations S.workspaceId id : Int)) rest first
          refine ⟨h.subset (reduceLeast_mem _ rest first), ?_⟩
          rw [Inbox.Prefers, hleast]
          exact fun b hb => Int.ofNat_le.mp (hrank b (h.symm.subset hb))
      · next hnot =>
          refine ⟨?_, h⟩
          cases hm : S.method with
          | roundRobin => rfl
          | leastAssigned => exact absurd hm hnot
          | manual => exact absurd hm hmethod

theorem sound_readRecent {load : Load} {first : Id} {rest : List Id}
    (h : S.Sound conversations (.recalling load first rest)) :
    S.Sound conversations
      (.chosen load (reduceLeast (lastAssigned conversations S.channelId) first rest)) := by
  refine ⟨h.2.subset (reduceLeast_mem _ rest first), ?_⟩
  rw [Inbox.Prefers, h.1]
  exact fun b hb => reduceLeast_le _ rest first b (h.2.symm.subset hb)

end Sound

/-! ## One ingest at a time -/

theorem pending?_eq_some {c : Call} {r : IngestRequest} :
    pending? c = some r ↔ c.ended = false ∧ c.request? = some r := by
  cases h : c.ended <;> simp [pending?, h]

/-- An ingest that is under way after a step of no other start was so before. -/
theorem pending?_of_step {w w' : Conversations.World} {a : Conversations.Action} {j : CallId}
    {r : IngestRequest} (h : Conversations.step w a = some w')
    (hstart : ∀ i request, a ≠ .ingest i request) (hr : pending? (w'.call j) = some r) :
    pending? (w.call j) = some r := by
  obtain ⟨hended, hrequest⟩ := pending?_eq_some.mp hr
  refine pending?_eq_some.mpr ⟨?_, ?_⟩
  · cases hbefore : (w.call j).ended with
    | false => rfl
    | true =>
        rw [step_ended h hbefore, hbefore] at hended
        cases hended
  · rcases request?_of_step h hrequest with hold | ⟨hingest, _⟩
    · exact hold
    · exact absurd hingest (hstart j r)

/-- One ingest is under way at most, and the choice of an ingest of the inbox is
right. -/
structure Calm (S : Inbox) (w : World) : Prop where
  alone : ∀ i j r r', pending? (w.base.call i) = some r → pending? (w.base.call j) = some r' →
    i = j
  ready : ∀ i r, pending? (w.base.call i) = some r → r.channel.id = S.channelId →
    r.channel.workspaceId = S.workspaceId ∧ S.Plain (w.inbox i) ∧
      S.Sound w.base.db.conversations (w.choice i)

section Step

variable {S : Inbox} {w w' : World}

theorem pending?_of_creating {i : CallId} {tx : IngestTx} (h : w.creating? i = some tx) :
    pending? (w.base.call i) = some tx.request := by
  unfold World.creating? at h
  split at h
  · next hcall =>
      cases h
      rw [hcall]
      rfl
  · cases h

/-- A choice that an ingest of the inbox has moved on. -/
theorem Calm.setChoice (hI : Calm S w) {i : CallId} {c : Choice}
    (hc : ∀ r, pending? (w.base.call i) = some r → r.channel.id = S.channelId →
      S.Sound w.base.db.conversations c) : Calm S (w.setChoice i c) where
  alone := hI.alone
  ready j r hj hchannel := by
    obtain ⟨hworkspace, hplain, hsound⟩ := hI.ready j r hj hchannel
    refine ⟨hworkspace, hplain, ?_⟩
    show S.Sound w.base.db.conversations (Function.update w.choice i c j)
    by_cases hji : j = i
    · subst hji
      rw [Function.update_self]
      exact hc r hj hchannel
    · rw [Function.update_of_ne hji]
      exact hsound

/-- The new places of a step of the other calls: none, or that of a conversation
whose ingest ends with the step. -/
inductive Grows (w : World) (base : Conversations.World) : Prop where
  | same : places base.db.conversations = places w.base.db.conversations → Grows w base
  | creates {i : CallId} {conversationId : Id} {createdAt : Date} {assignee : Option Id}
      {tx : IngestTx} {replyTo : Option Id} :
      w.base.call i = .writing tx none replyTo → (base.call i).ended = true →
      (w.choice i).assignee? = some assignee →
      places base.db.conversations = places w.base.db.conversations ++
        [placeOf (newConversation tx.request tx.sender conversationId createdAt assignee)] →
      Grows w base

theorem grows_of_step {a : Conversations.Action} {base : Conversations.World}
    (hawaits : awaits w a = true) (h : Conversations.step w.base a = some base)
    (hsteady : Steady w.base.db.conversations base.db.conversations) : Grows w base := by
  rcases places_of_step h hsteady with hsame |
    ⟨i, conversationId, createdAt, assignee, tx, replyTo, rfl, hcall, hended, hplaces⟩
  · exact .same hsame
  · simp only [awaits, hcall, decide_eq_true_eq] at hawaits
    exact .creates hcall hended hawaits hplaces

theorem calm_other (hI : Calm S w) {a : Conversations.Action} {base : Conversations.World}
    (hawaits : awaits w a = true) (h : Conversations.step w.base a = some base)
    (hsteady : Steady w.base.db.conversations base.db.conversations) :
    Calm S { w with base := base, choice := choiceAfter w.choice a } := by
  have hstart : ∀ i request, a ≠ .ingest i request := by
    rintro i request rfl
    cases hawaits
  constructor
  · intro i j r r' hi hj
    exact hI.alone i j r r' (pending?_of_step h hstart hi) (pending?_of_step h hstart hj)
  · intro j r hj hchannel
    have hpending := pending?_of_step h hstart hj
    obtain ⟨hworkspace, hplain, hsound⟩ := hI.ready j r hpending hchannel
    refine ⟨hworkspace, hplain, ?_⟩
    have hplaces : places base.db.conversations = places w.base.db.conversations := by
      cases grows_of_step hawaits h hsteady with
      | same hsame => exact hsame
      | @creates i _ _ _ tx _ hcall hended _ _ =>
          -- The ingest that creates a conversation is the one under way, and has ended.
          have hi : pending? (w.base.call i) = some tx.request := by
            rw [hcall]
            rfl
          obtain rfl := hI.alone j i r tx.request hpending hi
          rw [pending?_eq_some, hended] at hj
          cases hj.1
    show S.Sound base.db.conversations (choiceAfter w.choice a j)
    unfold choiceAfter
    split
    · next i =>
        by_cases hji : j = i
        · rw [hji, Function.update_self]
          trivial
        · rw [Function.update_of_ne hji]
          exact hsound.congr hplaces
    · exact hsound.congr hplaces

theorem calm_ingest {i : CallId} {request : IngestRequest} {settings : Json}
    {base : Conversations.World} (h : Conversations.step w.base (.ingest i request) = some base)
    (hserial : ∀ j, pending? (w.base.call j) = none)
    (hsettings : request.channel.id = S.channelId →
      request.channel.workspaceId = S.workspaceId ∧ S.Plain (readInboxSettings settings)) :
    Calm S { w with base := base, settings := Function.update w.settings i settings,
                    choice := Function.update w.choice i .start } := by
  have honly : ∀ j r, pending? (base.call j) = some r → j = i ∧ r = request := by
    intro j r hj
    by_cases hji : j = i
    · exact ⟨hji, (begins_of_ingest h).2 r (hji ▸ (pending?_eq_some.mp hj).2)⟩
    · rw [step_call_other h hji, hserial j] at hj
      cases hj
  constructor
  · intro j k r r' hj hk
    exact (honly j r hj).1.trans (honly k r' hk).1.symm
  · intro j r hj hchannel
    obtain ⟨rfl, rfl⟩ := honly j r hj
    obtain ⟨hworkspace, hplain⟩ := hsettings hchannel
    refine ⟨hworkspace, ?_, ?_⟩
    · simp only [World.inbox, Function.update_self]
      exact hplain
    · simp only [Function.update_self]
      trivial

theorem calm_step {a : Action} (hmethod : S.method ≠ .manual) (hI : Calm S w)
    (h : step w a = some w') (hstep : Undisturbed S w a w') : Calm S w' := by
  cases a with
  | ingest i request settings =>
      obtain ⟨base, hbase, rfl⟩ := Option.map_eq_some_iff.mp h
      exact calm_ingest hbase (hstep.serial i request settings rfl)
        (hstep.settings i request settings rfl)
  | readMembers i candidates =>
      simp only [step] at h
      split at h
      · next tx hcreating hchoice =>
          cases h
          refine hI.setChoice fun r hr hchannel => ?_
          obtain rfl : tx.request = r :=
            Option.some.inj ((pending?_of_creating hcreating).symm.trans hr)
          exact sound_afterMembers hmethod (hI.ready i _ hr hchannel).2.1
            (hstep.members i candidates tx rfl hcreating hchannel)
      · cases h
  | readCounts i =>
      simp only [step] at h
      split at h
      · next tx candidates hcreating hchoice =>
          cases h
          refine hI.setChoice fun r hr hchannel => ?_
          obtain rfl : tx.request = r :=
            Option.some.inj ((pending?_of_creating hcreating).symm.trans hr)
          obtain ⟨hworkspace, hplain, hsound⟩ := hI.ready i _ hr hchannel
          rw [hchoice] at hsound
          rw [hworkspace]
          exact sound_afterCounts hmethod hplain hsound
      · cases h
  | readPrevious i found =>
      simp only [step] at h
      split at h
      · next tx load first rest hcreating hchoice =>
          split at h
          · cases h
            refine hI.setChoice fun r hr hchannel => ?_
            have hsound := (hI.ready i _ hr hchannel).2.2
            rw [hchoice] at hsound
            exact hsound.elim
          · cases h
      · cases h
  | readRecent i =>
      simp only [step] at h
      split at h
      · next tx load first rest hcreating hchoice =>
          cases h
          refine hI.setChoice fun r hr hchannel => ?_
          obtain rfl : tx.request = r :=
            Option.some.inj ((pending?_of_creating hcreating).symm.trans hr)
          have hsound := (hI.ready i _ hr hchannel).2.2
          rw [hchoice] at hsound
          rw [hchannel]
          exact sound_readRecent hsound
      · cases h
  | other a =>
      simp only [step] at h
      split at h
      · next hawaits =>
          obtain ⟨base, hbase, rfl⟩ := Option.map_eq_some_iff.mp h
          exact calm_other hI hawaits hbase hstep.steady
      · cases h

/-! ## The agent of a new conversation -/

/-- A conversation of the channel has no agent where there are none, and else one
that the method may choose. -/
structure Inbox.Assigned (S : Inbox) (conversations : Conversations) (p : Place) : Prop where
  workspaceId : p.workspaceId = S.workspaceId
  isOpen : p.status = .open
  assignee : S.pool = [] ∧ p.assignee = none ∨
    ∃ m ∈ S.pool, p.assignee = some m ∧ S.Prefers conversations m

theorem assigned_of_grows (hI : Calm S w) {i : CallId} {conversationId : Id} {createdAt : Date}
    {assignee : Option Id} {tx : IngestTx} {replyTo : Option Id}
    (hcall : w.base.call i = .writing tx none replyTo)
    (hchoice : (w.choice i).assignee? = some assignee)
    (hchannel : tx.request.channel.id = S.channelId) :
    S.Assigned w.base.db.conversations
      (placeOf (newConversation tx.request tx.sender conversationId createdAt assignee)) := by
  have hpending : pending? (w.base.call i) = some tx.request := by
    rw [hcall]
    rfl
  obtain ⟨hworkspace, _, hsound⟩ := hI.ready i _ hpending hchannel
  refine ⟨hworkspace, rfl, ?_⟩
  cases hc : w.choice i with
  | unassigned =>
      rw [hc] at hsound hchoice
      exact Or.inl ⟨hsound, (Option.some.inj hchoice).symm⟩
  | chosen load m =>
      rw [hc] at hsound hchoice
      exact Or.inr ⟨m, hsound.1, (Option.some.inj hchoice).symm, hsound.2⟩
  | _ =>
      rw [hc] at hchoice
      cases hchoice

/-- A step adds one place or none, and a place of the channel has its agent. -/
theorem place_of_step {a : Action} (hI : Calm S w) (h : step w a = some w')
    (hsteady : Steady w.base.db.conversations w'.base.db.conversations) :
    places w'.base.db.conversations = places w.base.db.conversations ∨
      ∃ p, places w'.base.db.conversations = places w.base.db.conversations ++ [p] ∧
        (p.providerAccountId = S.channelId → S.Assigned w.base.db.conversations p) := by
  cases a with
  | ingest i request settings =>
      obtain ⟨base, hbase, rfl⟩ := Option.map_eq_some_iff.mp h
      rcases places_of_step hbase hsteady with hsame | ⟨_, _, _, _, _, _, ha, _⟩
      · exact Or.inl hsame
      · cases ha
  | readMembers i candidates | readCounts i | readRecent i =>
      simp only [step] at h
      split at h
      · cases h
        exact Or.inl rfl
      · cases h
  | readPrevious i found =>
      simp only [step] at h
      split at h
      · split at h
        · cases h
          exact Or.inl rfl
        · cases h
      · cases h
  | other a =>
      simp only [step] at h
      split at h
      · next hawaits =>
          obtain ⟨base, hbase, rfl⟩ := Option.map_eq_some_iff.mp h
          cases grows_of_step hawaits hbase hsteady with
          | same hsame => exact Or.inl hsame
          | creates hcall _ hchoice hplaces =>
              exact Or.inr ⟨_, hplaces, fun hchannel =>
                assigned_of_grows hI hcall hchoice hchannel⟩
      · cases h

end Step

/-! ## Round robin -/

/-- The assignments of the channel since a start: each later than the ones
before, and the agents in rotation. -/
structure Turning (S : Inbox) (start now : Conversations) (turns : List (Option Id × Date)) :
    Prop where
  grown : history S.channelId (places now) = history S.channelId (places start) ++ turns
  sorted : turns.Pairwise fun p q => p.2 < q.2
  later : ∀ old ∈ history S.channelId (places start), ∀ turn ∈ turns, old.2 < turn.2
  positive : ∀ turn ∈ turns, 0 < turn.2
  members : S.pool ≠ [] → ∀ turn ∈ turns, turn.1 ∈ S.pool.map some
  rotates : Rotates (S.pool.map some) (turns.map Prod.fst)

section Turning

variable {S : Inbox} {start now : Conversations} {turns : List (Option Id × Date)}

theorem turning_start (S : Inbox) (start : Conversations) : Turning S start start [] where
  grown := (List.append_nil _).symm
  sorted := .nil
  later := fun _ _ _ h => absurd h List.not_mem_nil
  positive := fun _ h => absurd h List.not_mem_nil
  members := fun _ _ h => absurd h List.not_mem_nil
  rotates := Lib.Turns.rotates_nil _

/-- An agent of the pool whose last assignment lies furthest back is due. -/
theorem Turning.due (h : Turning S start now turns) (hmethod : S.method = .roundRobin) {m : Id}
    (hm : S.Prefers now m) : Due (S.pool.map some) (turns.map Prod.fst) (some m) := by
  refine Lib.Turns.due_of_oldest h.sorted fun t ht b hb => ?_
  obtain ⟨b, hbPool, rfl⟩ := List.mem_map.mp hb
  rw [Inbox.Prefers, hmethod] at hm
  have hlast : t ≤ lastAssigned now S.channelId b :=
    Int.le_trans (le_lastAssigned (h.grown ▸ List.mem_append_right _ ht)) (hm b hbPool)
  obtain ⟨t', ht', hle⟩ := exists_of_lastAssigned (h.positive _ ht) hlast
  rw [h.grown] at ht'
  cases List.mem_append.mp ht' with
  | inl hold => exact absurd (h.later _ hold _ ht) (Int.not_lt.mpr hle)
  | inr hturn => exact ⟨t', hturn, hle⟩

/-- The next turn. -/
theorem Turning.concat (h : Turning S start now turns) (hmethod : S.method = .roundRobin)
    {now' : Conversations} {p : Place} (hplaces : places now' = places now ++ [p])
    (hchannel : p.providerAccountId = S.channelId) (hassigned : S.Assigned now p)
    (hpositive : 0 < p.createdAt)
    (hlater : ∀ q ∈ places now, q.providerAccountId = S.channelId → q.createdAt < p.createdAt) :
    Turning S start now' (turns ++ [(p.assignee, p.createdAt)]) := by
  have hnewest : ∀ old ∈ history S.channelId (places now), old.2 < p.createdAt := by
    intro old hold
    obtain ⟨q, hq, rfl⟩ := List.mem_map.mp hold
    obtain ⟨hmem, hqChannel⟩ := List.mem_filter.mp hq
    exact hlater q hmem (of_decide_eq_true hqChannel)
  rw [h.grown] at hnewest
  refine ⟨?_, ?_, ?_, ?_, ?_, ?_⟩
  · rw [← List.append_assoc, ← h.grown, hplaces]
    simp [history, List.filter_append, hchannel]
  · refine List.pairwise_append.mpr ⟨h.sorted, List.pairwise_singleton _ _, ?_⟩
    intro turn hturn last hlast
    rw [List.mem_singleton.mp hlast]
    exact hnewest turn (List.mem_append_right _ hturn)
  · intro old hold turn hturn
    cases List.mem_append.mp hturn with
    | inl hturn => exact h.later old hold turn hturn
    | inr hlast =>
        rw [List.mem_singleton.mp hlast]
        exact hnewest old (List.mem_append_left _ hold)
  · intro turn hturn
    cases List.mem_append.mp hturn with
    | inl hturn => exact h.positive turn hturn
    | inr hlast =>
        rw [List.mem_singleton.mp hlast]
        exact hpositive
  · intro hpool turn hturn
    cases List.mem_append.mp hturn with
    | inl hturn => exact h.members hpool turn hturn
    | inr hlast =>
        rw [List.mem_singleton.mp hlast]
        rcases hassigned.assignee with ⟨hnil, _⟩ | ⟨m, hm, heq, _⟩
        · exact absurd hnil hpool
        · exact heq ▸ List.mem_map_of_mem hm
  · rw [List.map_append]
    refine h.rotates.concat ?_
    rcases hassigned.assignee with ⟨hnil, _⟩ | ⟨m, hm, heq, hprefers⟩
    · intro earlier between _ b hb
      rw [hnil] at hb
      cases hb
    · exact heq ▸ h.due hmethod hprefers

/-- A conversation of another channel is no turn. -/
theorem Turning.other (h : Turning S start now turns) {now' : Conversations} {p : Place}
    (hplaces : places now' = places now ++ [p]) (hchannel : p.providerAccountId ≠ S.channelId) :
    Turning S start now' turns := by
  refine { h with grown := ?_ }
  rw [← h.grown, hplaces]
  simp [history, List.filter_append, hchannel]

end Turning

/-! ## Least assigned -/

/-- A new conversation of the channel goes to an agent with the fewest open
conversations. -/
def Fewest (S : Inbox) (w : World) (_ : Action) (w' : World) : Prop :=
  ∀ r, IsNew w.base.db.conversations w'.base.db.conversations r →
    r.providerAccountId = S.channelId → S.pool ≠ [] →
    ∃ m ∈ S.pool, r.assigneeMembershipId = some m ∧
      ∀ b ∈ S.pool, openCounts w.base.db.conversations S.workspaceId m ≤
        openCounts w.base.db.conversations S.workspaceId b

section Least

variable {S : Inbox}

theorem openCounts_append {now now' : Conversations} {p : Place}
    (hplaces : places now' = places now ++ [p]) (workspaceId m : Id) :
    openCounts now' workspaceId m =
      openCounts now workspaceId m + if openPlace workspaceId m p then 1 else 0 := by
  rw [openCounts_eq, openCounts_eq, hplaces, List.countP_append, List.countP_singleton]

/-- Loads stay even where a conversation is given to an agent with the fewest. -/
theorem even_assigned {now now' : Conversations} {p : Place}
    (hplaces : places now' = places now ++ [p]) (hmethod : S.method = .leastAssigned)
    (hassigned : S.Assigned now p) (heven : Even S.pool (openCounts now S.workspaceId)) :
    Even S.pool (openCounts now' S.workspaceId) := by
  rcases hassigned.assignee with ⟨hnil, _⟩ | ⟨m, hm, heq, hprefers⟩
  · intro b hb
    rw [hnil] at hb
    cases hb
  · rw [Inbox.Prefers, hmethod] at hprefers
    have hcount : ∀ b, openPlace S.workspaceId b p = decide (b = m) := by
      intro b
      have hopen : p.status ∈ OPEN_STATUSES := hassigned.isOpen ▸ List.mem_cons_self
      rw [openPlace, hassigned.workspaceId, heq, decide_eq_true hopen, Bool.and_true,
        decide_eq_true rfl, Bool.true_and]
      exact decide_eq_decide.mpr ⟨fun h => (Option.some.inj h).symm, fun h => h ▸ rfl⟩
    refine heven.add ?_ hprefers ?_
    · rw [openCounts_append hplaces, hcount, decide_eq_true rfl, if_pos rfl]
    · intro b _ hbm
      rw [openCounts_append hplaces, hcount, decide_eq_false hbm, if_neg Bool.false_ne_true]
      rfl

/-- A conversation that no agent of the pool gets changes no load. -/
theorem even_other {now now' : Conversations} {p : Place}
    (hplaces : places now' = places now ++ [p]) (hother : ∀ m ∈ S.pool, p.assignee ≠ some m)
    (heven : Even S.pool (openCounts now S.workspaceId)) :
    Even S.pool (openCounts now' S.workspaceId) := by
  have hsame : ∀ b ∈ S.pool,
      openCounts now' S.workspaceId b = openCounts now S.workspaceId b := by
    intro b hb
    rw [openCounts_append hplaces, if_neg, Nat.add_zero]
    simp [openPlace, hother b hb]
  intro b hb c hc
  rw [hsame b hb, hsame c hc]
  exact heven b hb c hc

end Least

/-! ## Runs -/

section Runs

variable {S : Inbox} {w w' : World} {as : List Action}

/-- Without an ingest under way there is nothing to be right about. -/
theorem calm_of_quiet (h : ∀ i, pending? (w.base.call i) = none) : Calm S w where
  alone i _ r _ hi _ := by
    rw [h i] at hi
    cases hi
  ready i r hi _ := by
    rw [h i] at hi
    cases hi

/-- A step takes the next turn, or none. -/
theorem turning_step {a : Action} {start : Conversations} (hmethod : S.method = .roundRobin)
    (hI : Calm S w) (h : step w a = some w') (hstep : Undisturbed S w a w')
    (hturning : ∃ turns, Turning S start w.base.db.conversations turns) :
    ∃ turns, Turning S start w'.base.db.conversations turns := by
  obtain ⟨turns, hturns⟩ := hturning
  rcases place_of_step hI h hstep.steady with hsame | ⟨p, hplaces, hassigned⟩
  · exact ⟨turns, { hturns with grown := hsame ▸ hturns.grown }⟩
  · by_cases hchannel : p.providerAccountId = S.channelId
    · obtain ⟨⟨r, hnew, rfl⟩, _⟩ := isNew_of_places_append hplaces
      obtain ⟨hpositive, hlater⟩ := hstep.increasing r hnew hchannel
      refine ⟨_, hturns.concat hmethod hplaces hchannel (hassigned hchannel) hpositive ?_⟩
      intro q hq hqChannel
      obtain ⟨r0, hr0, rfl⟩ := List.mem_map.mp hq
      exact hlater r0 hr0 hqChannel
    · exact ⟨turns, hturns.other hplaces hchannel⟩

theorem even_step {a : Action} (hmethod : S.method = .leastAssigned) (hI : Calm S w)
    (h : step w a = some w') (hstep : Undisturbed S w a w')
    (heven : Even S.pool (openCounts w.base.db.conversations S.workspaceId)) :
    Even S.pool (openCounts w'.base.db.conversations S.workspaceId) := by
  rcases place_of_step hI h hstep.steady with hsame | ⟨p, hplaces, hassigned⟩
  · intro b hb c hc
    rw [openCounts_eq, openCounts_eq, hsame, ← openCounts_eq, ← openCounts_eq]
    exact heven b hb c hc
  · by_cases hchannel : p.providerAccountId = S.channelId
    · exact even_assigned hplaces hmethod (hassigned hchannel) heven
    · obtain ⟨⟨r, hnew, rfl⟩, _⟩ := isNew_of_places_append hplaces
      exact even_other hplaces (hstep.others r hnew hchannel) heven

theorem fewest_step {a : Action} (hmethod : S.method = .leastAssigned) (hI : Calm S w)
    (h : step w a = some w') (hstep : Undisturbed S w a w') : Fewest S w a w' := by
  intro r hnew hchannel hpool
  rcases place_of_step hI h hstep.steady with hsame | ⟨p, hplaces, hassigned⟩
  · exact absurd hnew (not_isNew_of_places_eq hsame r)
  · obtain rfl := (isNew_of_places_append hplaces).2 r hnew
    rcases (hassigned hchannel).assignee with ⟨hnil, _⟩ | ⟨m, hm, heq, hprefers⟩
    · exact absurd hnil hpool
    · rw [Inbox.Prefers, hmethod] at hprefers
      exact ⟨m, hm, heq, hprefers⟩

/-- The agents of the conversations of a channel, in the order of their
creation. -/
def assignees (S : Inbox) (conversations : Conversations) : List (Option Id) :=
  (conversations.rows.filter fun c => c.providerAccountId = S.channelId).map
    Conversation.assigneeMembershipId

theorem assignees_eq (S : Inbox) (conversations : Conversations) :
    assignees S conversations = (history S.channelId (places conversations)).map Prod.fst := by
  rw [assignees, history, places, List.filter_map, List.map_map, List.map_map]
  rfl

/-- In an undisturbed run that begins without an ingest under way, an inbox of
round robin gives any `k` new conversations in a row to its `k` agents, one each.
An inbox of least assigned gives every new conversation to an agent with the
fewest open ones, and loads that differ by at most one keep doing so. -/
theorem assignment_fair (hquiet : ∀ i, pending? (w.base.call i) = none) (hpool : S.pool.Nodup)
    (hrun : machine.run w as = some w') (halong : machine.Along (Undisturbed S) w as) :
    (S.method = .roundRobin → ∃ created,
      assignees S w'.base.db.conversations = assignees S w.base.db.conversations ++ created ∧
        ∀ block, block <:+: created → block.length = S.pool.length →
          block.Perm (S.pool.map some)) ∧
    (S.method = .leastAssigned → machine.Along (Fewest S) w as ∧
      (Even S.pool (openCounts w.base.db.conversations S.workspaceId) →
        Even S.pool (openCounts w'.base.db.conversations S.workspaceId))) := by
  constructor
  · intro hmethod
    have hmanual : S.method ≠ .manual := by rw [hmethod]; decide
    obtain ⟨_, turns, hturns⟩ := Machine.invariant_along
      (I := fun v => Calm S v ∧ ∃ turns,
        Turning S w.base.db.conversations v.base.db.conversations turns)
      (fun v a v' hI hs hP =>
        ⟨calm_step hmanual hI.1 hs hP, turning_step hmethod hI.1 hs hP hI.2⟩)
      ⟨calm_of_quiet hquiet, [], turning_start S _⟩ halong hrun
    refine ⟨turns.map Prod.fst, ?_, fun block hblock hlength => ?_⟩
    · rw [assignees_eq, assignees_eq, hturns.grown, List.map_append]
    · have hnodup : (S.pool.map some).Nodup := hpool.map fun _ _ h => Option.some.inj h
      cases hnil : S.pool with
      | nil =>
          rw [hnil] at hlength
          rw [List.length_eq_zero_iff.mp hlength]
          exact .refl _
      | cons first rest =>
          rw [← hnil]
          refine hturns.rotates.perm_of_infix hnodup (fun m hm => ?_) hblock
            (by rw [hlength, List.length_map])
          obtain ⟨turn, hturn, rfl⟩ := List.mem_map.mp hm
          exact hturns.members (by rw [hnil]; exact List.cons_ne_nil _ _) turn hturn
  · intro hmethod
    have hmanual : S.method ≠ .manual := by rw [hmethod]; decide
    refine ⟨Machine.along_of_along (fun v a v' hI hs hP =>
      ⟨calm_step hmanual hI hs hP, fewest_step hmethod hI hs hP⟩) (calm_of_quiet hquiet) halong,
      fun heven => ?_⟩
    exact (Machine.invariant_along
      (I := fun v => Calm S v ∧ Even S.pool (openCounts v.base.db.conversations S.workspaceId))
      (fun v a v' hI hs hP => ⟨calm_step hmanual hI.1 hs hP, even_step hmethod hI.1 hs hP hI.2⟩)
      ⟨calm_of_quiet hquiet, heven⟩ halong hrun).2

end Runs

/-! ## Two agents and two senders -/

/-- The call an action moves. -/
def Action.call : Action → CallId
  | .ingest i _ _ => i
  | .readMembers i _ => i
  | .readCounts i => i
  | .readPrevious i _ => i
  | .readRecent i => i
  | .other a => a.call

/-- A step moves one call. -/
theorem call_other_of_step {w w' : World} {a : Action} {j : CallId} (h : step w a = some w')
    (hj : j ≠ a.call) : w'.base.call j = w.base.call j := by
  cases a with
  | ingest i request settings =>
      obtain ⟨base, hbase, rfl⟩ := Option.map_eq_some_iff.mp h
      exact step_call_other hbase hj
  | readMembers i candidates | readCounts i | readRecent i =>
      simp only [step] at h
      split at h
      · cases h
        rfl
      · cases h
  | readPrevious i found =>
      simp only [step] at h
      split at h
      · split at h
        · cases h
          rfl
        · cases h
      · cases h
  | other a =>
      simp only [step] at h
      split at h
      · obtain ⟨base, hbase, rfl⟩ := Option.map_eq_some_iff.mp h
        exact step_call_other hbase hj
      · cases h

/-- A test for undisturbed steps of two calls on one channel. -/
def undisturbedTest (S : Inbox) (e : World × Action × World) : Bool :=
  let before := e.1.base.db.conversations.rows
  let after := e.2.2.base.db.conversations.rows
  (e.2.1.call = 0 || e.2.1.call = 1) &&
  (match e.2.1 with
    | .ingest _ request settings =>
        let inbox := readInboxSettings settings
        (pending? (e.1.base.call 0)).isNone && (pending? (e.1.base.call 1)).isNone &&
          request.channel.workspaceId = S.workspaceId && inbox.distributionMethod = S.method &&
            !inbox.maxConversationsEnabled && !inbox.preferredAgent
    | .readMembers _ candidates => candidates = S.pool
    | _ => true) &&
  (before.all fun r => after.all fun r' => r'.id ≠ r.id ||
    (r'.assigneeMembershipId = r.assigneeMembershipId && r'.status = r.status)) &&
  after.all fun r => (before.any fun r0 => r0.id = r.id) ||
    (r.providerAccountId = S.channelId && 0 < r.createdAt &&
      before.all fun r0 => r0.createdAt < r.createdAt)

theorem undisturbed_of_test {S : Inbox} {w w' : World} {a : Action}
    (hidle : ∀ j, j ≠ 0 → j ≠ 1 → w.base.call j = .idle)
    (h : undisturbedTest S (w, a, w') = true) : Undisturbed S w a w' := by
  simp only [undisturbedTest, Bool.and_eq_true, List.all_eq_true, Bool.or_eq_true,
    List.any_eq_true, decide_eq_true_eq] at h
  obtain ⟨⟨⟨_, haction⟩, hsteady⟩, hnew⟩ := h
  have hcreated : ∀ r, IsNew w.base.db.conversations w'.base.db.conversations r →
      (r.providerAccountId = S.channelId ∧ 0 < r.createdAt) ∧
        ∀ r0 ∈ w.base.db.conversations.rows, r0.createdAt < r.createdAt := by
    intro r hr
    rcases hnew r hr.1 with ⟨r0, hr0, heq⟩ | hcreated
    · exact absurd heq (hr.2 r0 hr0)
    · exact hcreated
  refine ⟨?_, ?_, ?_, ?_, ?_, ?_⟩
  · rintro i request settings rfl j
    simp only [Bool.and_eq_true, Option.isNone_iff_eq_none] at haction
    by_cases h0 : j = 0
    · exact h0 ▸ haction.1.1.1.1.1
    · by_cases h1 : j = 1
      · exact h1 ▸ haction.1.1.1.1.2
      · rw [hidle j h0 h1]
        rfl
  · rintro i request settings rfl _
    simp only [Bool.and_eq_true, decide_eq_true_eq, Bool.not_eq_true'] at haction
    exact ⟨haction.1.1.1.2, haction.1.1.2, haction.1.2, haction.2⟩
  · rintro i candidates tx rfl _ _
    simp only [decide_eq_true_eq] at haction
    exact haction ▸ .refl _
  · intro r hr r' hr' hid
    rcases hsteady r hr r' hr' with hne | hsame
    · exact absurd hid hne
    · exact hsame
  · intro r hr hchannel
    exact absurd (hcreated r hr).1.1 hchannel
  · intro r hr _
    exact ⟨(hcreated r hr).1.2, fun r0 hr0 _ => (hcreated r hr).2 r0 hr0⟩

/-- An inbox of round robin with two agents. -/
def exampleInbox : Inbox where
  channelId := exampleChannel.id
  workspaceId := exampleChannel.workspaceId
  method := .roundRobin
  pool := ["agent-1", "agent-2"]

/-- The first message of a sender, which goes to this agent. -/
def takesTurn (i : CallId) (sender : String) (createdAt : Date) (agent : Id) : List Action :=
  [.ingest i (firstMessage sender) (.object [("distributionMethod", .string "ROUND_ROBIN")]),
    .other (.lock i), .other (.readSender i 10 ("contact-" ++ sender) ("identity-" ++ sender)),
    .other (.readOpen i []), .readMembers i ["agent-1", "agent-2"], .readCounts i, .readRecent i,
    .other (.readReplyTarget i),
    .other (.commitIngest i ("conversation-" ++ sender) createdAt (some agent))]

def exampleTurns : List Action :=
  takesTurn 0 "a" 20 "agent-1" ++ takesTurn 1 "b" 21 "agent-2"

theorem along_undisturbed_exampleTurns :
    machine.Along (Undisturbed exampleInbox) World.init exampleTurns := by
  have htest : ((machine.trace World.init exampleTurns).all (undisturbedTest exampleInbox)) =
      true := by decide
  have hall : machine.Along (fun w a w' => undisturbedTest exampleInbox (w, a, w') = true)
      World.init exampleTurns := Machine.along_of_trace (List.all_eq_true.mp htest)
  refine Machine.along_of_along (I := fun w => ∀ j, j ≠ 0 → j ≠ 1 → w.base.call j = .idle)
    (fun w a w' hI hs hP => ⟨fun j h0 h1 => ?_, undisturbed_of_test hI hP⟩) (fun _ _ _ => rfl) hall
  rw [call_other_of_step hs, hI j h0 h1]
  rintro rfl
  simp only [undisturbedTest, Bool.and_eq_true, Bool.or_eq_true, decide_eq_true_eq] at hP
  exact hP.1.1.1.elim h0 h1

/-- The two new conversations go to the two agents. -/
theorem assignment_fair_exampleTurns :
    ∃ w', machine.run World.init exampleTurns = some w' ∧ ∃ created,
      assignees exampleInbox w'.base.db.conversations =
          assignees exampleInbox World.init.base.db.conversations ++ created ∧
        ∀ block, block <:+: created → block.length = 2 →
          block.Perm [some "agent-1", some "agent-2"] := by
  have hsome : (machine.run World.init exampleTurns).isSome = true := by decide
  obtain ⟨w', hrun⟩ := Option.isSome_iff_exists.mp hsome
  exact ⟨w', hrun, (assignment_fair (fun _ => rfl) (by decide) hrun
    along_undisturbed_exampleTurns).1 rfl⟩

end Vynor.Conversations.Assignment
