import Mathlib.Data.Int.Order.Basic
import Vynor.Contracts.Channel
import Vynor.Conversations.Commits

/-!
# Automatic assignment

`chooseAssignee`, cut at its awaits.  An ingest that found no conversation
lists the agents of the inbox, counts their open conversations, looks for the
agent the sender had before, and, in round robin, for the last assignment of
each agent.  `Choice` names the points where it can stand.  The machine is that
of ingests and agents, in which a new conversation now gets the agent that was
chosen.

The counts are those of the moment they were read.  The lock of an ingest is
that of its sender, so ingests of other senders commit in between, and then the
cap of an agent can be exceeded.  It is kept exactly where the check of the counts
would still pass at the commit (`along_capKept_iff`), as it does where nobody gets a
further conversation between the count and the commit
(`along_stillBelow_of_uncrossed`).
-/

namespace Vynor.Conversations.Assignment

open Lib (Table Machine Json)

/-! ## What is read -/

/-- The open conversations of an agent, as `openCounts` counts them. -/
def openConversation (workspaceId membershipId : Id) (c : Conversation) : Bool :=
  c.workspaceId = workspaceId && c.assigneeMembershipId = some membershipId &&
    c.status ∈ OPEN_STATUSES

/-- `load.get(id) ?? 0`. -/
abbrev Load := Id → Nat

/-- The counts a transaction reads. -/
def openCounts (conversations : Conversations) (workspaceId : Id) : Load :=
  fun membershipId => conversations.count (openConversation workspaceId membershipId)

/-- `available`. -/
def available (settings : InboxSettings) (candidates : List Id) (load : Load) : List Id :=
  if settings.maxConversationsEnabled then
    candidates.filter fun id => load id < settings.maxConversationsPerAgent
  else candidates

/-- The `WHERE` of the sender's previous conversation. -/
def hadAgent (contactIdentityId : Id) (available : List Id) (c : Conversation) : Bool :=
  c.contactIdentityId = contactIdentityId &&
    c.assigneeMembershipId.any fun id => id ∈ available

/-- `lastAssigned.get(id) ?? 0`. -/
def lastAssigned (conversations : Conversations) (channelId membershipId : Id) : Date :=
  (((conversations.rows.filter fun c =>
    c.providerAccountId = channelId && c.assigneeMembershipId = some membershipId).map
      Conversation.createdAt).max?).getD 0

/-- `reduce((best, id) => rank(id) < rank(best) ? id : best)`. -/
def reduceLeast (rank : Id → Int) (best : Id) : List Id → Id
  | [] => best
  | id :: ids => reduceLeast rank (if rank id < rank best then id else best) ids

theorem reduceLeast_mem (rank : Id → Int) (ids : List Id) :
    ∀ best, reduceLeast rank best ids ∈ best :: ids := by
  induction ids with
  | nil => intro best; exact List.mem_singleton_self best
  | cons id ids ih =>
      intro best
      have hrest := ih (if rank id < rank best then id else best)
      rw [reduceLeast]
      rcases List.mem_cons.mp hrest with heq | hmem
      · rw [heq]
        split
        · exact List.mem_cons_of_mem best List.mem_cons_self
        · exact List.mem_cons_self
      · exact List.mem_cons_of_mem best (List.mem_cons_of_mem id hmem)

/-! ## The choice -/

/-- Where `chooseAssignee` stands. -/
inductive Choice where
  | start
  | listed (candidates : List Id)
  | preferring (load : Load) (first : Id) (rest : List Id)
  | recalling (load : Load) (first : Id) (rest : List Id)
  | unassigned
  | chosen (load : Load) (membershipId : Id)

/-- What `chooseAssignee` returned. -/
def Choice.assignee? : Choice → Option (Option Id)
  | .unassigned => some none
  | .chosen _ membershipId => some (some membershipId)
  | _ => none

/-- After the members were listed. -/
def afterMembers (settings : InboxSettings) (candidates : List Id) : Choice :=
  if settings.distributionMethod = .manual then .unassigned
  else if candidates = [] then .unassigned
  else .listed candidates

/-- After the previous agent was looked for, or not. -/
def afterPreference (settings : InboxSettings) (load : Load) (first : Id) (rest : List Id) :
    Choice :=
  if settings.distributionMethod = .leastAssigned then
    .chosen load (reduceLeast (fun id => load id) first rest)
  else .recalling load first rest

/-- After the open conversations were counted. -/
def afterCounts (settings : InboxSettings) (candidates : List Id) (load : Load) : Choice :=
  match available settings candidates load with
  | [] => .unassigned
  | first :: rest =>
      if settings.preferredAgent then .preferring load first rest
      else afterPreference settings load first rest

/-- After the previous conversation was read. -/
def afterPrevious (settings : InboxSettings) (load : Load) (first : Id) (rest : List Id)
    (previous : Option Conversation) : Choice :=
  match truthy (previous.bind Conversation.assigneeMembershipId) with
  | some membershipId => .chosen load membershipId
  | none => afterPreference settings load first rest

/-! ## The machine -/

/-- Ingests and agents, with the inbox settings each ingest was given and its
choice. -/
structure World where
  base : Conversations.World
  settings : CallId → Json
  choice : CallId → Choice

/-- What can happen next.  The members of the inbox are as the database answers
at the time. -/
inductive Action where
  | ingest (i : CallId) (request : IngestRequest) (settings : Json)
  | readMembers (i : CallId) (candidates : List Id)
  | readCounts (i : CallId)
  | readPrevious (i : CallId) (found : List Conversation)
  | readRecent (i : CallId)
  | other (a : Conversations.Action)

/-- The settings of an ingest. -/
def World.inbox (w : World) (i : CallId) : InboxSettings := readInboxSettings (w.settings i)

/-- The same world with one choice at another point. -/
def World.setChoice (w : World) (i : CallId) (c : Choice) : World :=
  { w with choice := Function.update w.choice i c }

/-- The transaction of an ingest that found no conversation. -/
def World.creating? (w : World) (i : CallId) : Option IngestTx :=
  match w.base.call i with
  | .resolved tx none => some tx
  | _ => none

/-- The choice that a step of the other calls needs: a new conversation waits for
it, and is created with it. -/
def awaits (w : World) : Conversations.Action → Bool
  | .ingest _ _ => false
  | .readReplyTarget i => (w.creating? i).isNone || (w.choice i).assignee?.isSome
  | .commitIngest i _ _ assignee =>
      match w.base.call i with
      | .writing _ none _ => (w.choice i).assignee? = some assignee
      | _ => true
  | _ => true

/-- A transaction begins without a choice. -/
def choiceAfter (choice : CallId → Choice) : Conversations.Action → CallId → Choice
  | .lock i => Function.update choice i .start
  | _ => choice

/-- One action. -/
def step (w : World) : Action → Option World
  | .ingest i request settings =>
      (Conversations.step w.base (.ingest i request)).map fun base =>
        { w with base := base, settings := Function.update w.settings i settings,
                 choice := Function.update w.choice i .start }
  | .readMembers i candidates =>
      match w.creating? i, w.choice i with
      | some _, .start => some (w.setChoice i (afterMembers (w.inbox i) candidates))
      | _, _ => none
  | .readCounts i =>
      match w.creating? i, w.choice i with
      | some tx, .listed candidates =>
          some (w.setChoice i (afterCounts (w.inbox i) candidates
            (openCounts w.base.db.conversations tx.request.channel.workspaceId)))
      | _, _ => none
  | .readPrevious i found =>
      match w.creating? i, w.choice i with
      | some tx, .preferring load first rest =>
          if w.base.db.conversations.Selects (hadAgent tx.sender.identityId (first :: rest))
              newestFirst 1 found then
            some (w.setChoice i (afterPrevious (w.inbox i) load first rest found.head?))
          else none
      | _, _ => none
  | .readRecent i =>
      match w.creating? i, w.choice i with
      | some tx, .recalling load first rest =>
          some (w.setChoice i (.chosen load (reduceLeast
            (lastAssigned w.base.db.conversations tx.request.channel.id) first rest)))
      | _, _ => none
  | .other a =>
      if awaits w a then
        (Conversations.step w.base a).map fun base =>
          { w with base := base, choice := choiceAfter w.choice a }
      else none

/-- Ingests that choose their agents, and agents, as a machine. -/
def machine : Machine World Action := ⟨step⟩

/-! ## What was chosen was below the cap -/

/-- The agents a choice has left had fewer open conversations than the cap when
it counted them. -/
def Choice.Honours (settings : InboxSettings) : Choice → Prop
  | .preferring load first rest =>
      settings.maxConversationsEnabled = true →
        ∀ id ∈ first :: rest, load id < settings.maxConversationsPerAgent
  | .recalling load first rest =>
      settings.maxConversationsEnabled = true →
        ∀ id ∈ first :: rest, load id < settings.maxConversationsPerAgent
  | .chosen load membershipId =>
      settings.maxConversationsEnabled = true →
        load membershipId < settings.maxConversationsPerAgent
  | _ => True

section Honours

variable {settings : InboxSettings} {load : Load} {first : Id} {rest : List Id}

theorem honours_afterMembers (candidates : List Id) :
    (afterMembers settings candidates).Honours settings := by
  unfold afterMembers
  split
  · trivial
  · split <;> trivial

theorem honours_afterPreference (h : (Choice.recalling load first rest).Honours settings) :
    (afterPreference settings load first rest).Honours settings := by
  unfold afterPreference
  split
  · intro henabled
    exact h henabled _ (reduceLeast_mem _ rest first)
  · exact h

theorem honours_afterCounts (candidates : List Id) :
    (afterCounts settings candidates load).Honours settings := by
  unfold afterCounts
  split
  · trivial
  · next first rest havailable =>
      have hbelow : (Choice.recalling load first rest).Honours settings := by
        intro henabled id hid
        rw [available, if_pos henabled] at havailable
        rw [← havailable] at hid
        exact of_decide_eq_true (List.mem_filter.mp hid).2
      split
      · exact hbelow
      · exact honours_afterPreference hbelow

/-- The agent of the previous conversation is one of those that were left. -/
theorem honours_afterPrevious {conversations : Conversations} {identityId : Id}
    {found : List Conversation} (h : (Choice.recalling load first rest).Honours settings)
    (hfound : conversations.Selects (hadAgent identityId (first :: rest)) newestFirst 1 found) :
    (afterPrevious settings load first rest found.head?).Honours settings := by
  unfold afterPrevious
  split
  · next membershipId htruthy =>
      intro henabled
      refine h henabled membershipId ?_
      cases found with
      | nil => cases htruthy
      | cons c found =>
          have hhad := (hfound.selected c List.mem_cons_self).2
          rw [hadAgent, Bool.and_eq_true] at hhad
          rw [List.head?_cons, Option.bind_some, truthy, Option.filter_eq_some_iff] at htruthy
          rw [htruthy.1] at hhad
          exact of_decide_eq_true hhad.2
  · exact honours_afterPreference h

end Honours

/-- Every choice honours the cap of its inbox. -/
def World.Honours (w : World) : Prop := ∀ i, (w.choice i).Honours (w.inbox i)

theorem honours_update {choice : CallId → Choice} {inbox : CallId → InboxSettings} {i : CallId}
    {c : Choice} (hI : ∀ j, (choice j).Honours (inbox j)) (hc : c.Honours (inbox i)) (j : CallId) :
    (Function.update choice i c j).Honours (inbox j) := by
  by_cases hj : j = i
  · rw [hj, Function.update_self]
    exact hc
  · rw [Function.update_of_ne hj]
    exact hI j

theorem honours_step {w w' : World} {a : Action} (hI : w.Honours) (h : step w a = some w') :
    w'.Honours := by
  cases a with
  | ingest i request settings =>
      obtain ⟨base, _, rfl⟩ := Option.map_eq_some_iff.mp h
      intro j
      by_cases hj : j = i
      · simp only [hj, Function.update_self]
        trivial
      · have hsettings : Function.update w.settings i settings j = w.settings j :=
          Function.update_of_ne hj settings w.settings
        simp only [World.inbox, hsettings, Function.update_of_ne hj]
        exact hI j
  | readMembers i candidates =>
      simp only [step] at h
      split at h
      · cases h
        exact honours_update hI (honours_afterMembers candidates)
      · cases h
  | readCounts i =>
      simp only [step] at h
      split at h
      · cases h
        exact honours_update hI (honours_afterCounts _)
      · cases h
  | readPrevious i found =>
      simp only [step] at h
      split at h
      · next tx load first rest _ hchoice =>
          split at h
          · next hfound =>
              cases h
              have hleft := hI i
              rw [hchoice] at hleft
              exact honours_update hI (honours_afterPrevious hleft hfound)
          · cases h
      · cases h
  | readRecent i =>
      simp only [step] at h
      split at h
      · next tx load first rest _ hchoice =>
          cases h
          have hleft := hI i
          rw [hchoice] at hleft
          exact honours_update hI fun henabled => hleft henabled _ (reduceLeast_mem _ rest first)
      · cases h
  | other a =>
      simp only [step] at h
      split at h
      · obtain ⟨base, _, rfl⟩ := Option.map_eq_some_iff.mp h
        intro j
        show (choiceAfter w.choice a j).Honours (w.inbox j)
        unfold choiceAfter
        split
        · exact honours_update (c := .start) hI trivial j
        · exact hI j
      · cases h

/-! ## The cap at the commit -/

/-- A transaction that creates a conversation for an agent, and commits. -/
structure Assigns (w : World) (a : Action) (w' : World) (i : CallId) (tx : IngestTx) (load : Load)
    (membershipId : Id) : Prop where
  action : ∃ conversationId createdAt assignee,
    a = .other (.commitIngest i conversationId createdAt assignee)
  writing : ∃ replyTo, w.base.call i = .writing tx none replyTo
  choice : w.choice i = .chosen load membershipId
  committed : ∃ result, w'.base.call i = .ingested tx.request result

/-- A conversation is created for an agent, and then the agent has no more open
ones in the workspace than the cap of the inbox. -/
def CapKept (w : World) (a : Action) (w' : World) : Prop :=
  ∀ i tx load membershipId, Assigns w a w' i tx load membershipId →
    (w.inbox i).maxConversationsEnabled = true →
    openCounts w'.base.db.conversations tx.request.channel.workspaceId membershipId ≤
      (w.inbox i).maxConversationsPerAgent

/-- A conversation is created for an agent who has fewer open ones than the cap until
then, as the check of the counts asks. -/
def StillBelow (w : World) (a : Action) (w' : World) : Prop :=
  ∀ i tx load membershipId, Assigns w a w' i tx load membershipId →
    (w.inbox i).maxConversationsEnabled = true →
      openCounts w.base.db.conversations tx.request.channel.workspaceId membershipId <
        (w.inbox i).maxConversationsPerAgent

/-- The update of an ingest that created its conversation leaves the other rows
alone, so that the agent has one open conversation more. -/
theorem openCounts_created {db db' : Db} {tx : IngestTx} {replyTo : Option Id}
    {fresh c : Conversation} {t : Conversations} {result : IngestResult} {membershipId : Id}
    (h : Ingested db db' tx none replyTo fresh result c t)
    (hworkspace : fresh.workspaceId = tx.request.channel.workspaceId)
    (hassignee : fresh.assigneeMembershipId = some membershipId) (hstatus : fresh.status = .open) :
    openCounts db'.conversations tx.request.channel.workspaceId membershipId =
      openCounts db.conversations tx.request.channel.workspaceId membershipId + 1 := by
  obtain ⟨htarget, _, hcounted, _⟩ := h
  cases htarget with
  | created hinsert =>
      obtain ⟨hfree, hrows⟩ := Table.insert?_eq_some.mp hinsert
      have hold : ∀ r ∈ db.conversations.rows, r.id ≠ fresh.id := fun r hr heq =>
        hfree r hr (List.mem_singleton.mpr rfl) (List.mem_singleton.mpr heq)
      have hlast : openConversation tx.request.channel.workspaceId membershipId
          (counted fresh tx.createdAt (newMessage tx fresh.id replyTo).text fresh) = true := by
        have hopen := (status_counted_of_open hstatus tx.createdAt
          (newMessage tx fresh.id replyTo).text fresh).1
        simp only [openConversation, Bool.and_eq_true, decide_eq_true_eq]
        exact ⟨⟨hworkspace, hassignee⟩, by rw [hopen, hstatus]; decide⟩
      simp only [openCounts, Table.count, hcounted, Table.updateMany, hrows, List.map_append,
        List.countP_append, List.countP_map, List.map_cons, List.map_nil, decide_true, if_true,
        List.countP_singleton, hlast]
      congr 1
      refine List.countP_congr fun r hr => ?_
      simp only [Function.comp_apply, hold r hr, decide_false, Bool.false_eq_true, if_false]

/-- A commit that creates a conversation for an agent adds one to the count. -/
theorem openCounts_assigned {w w' : World} {a : Action} {i : CallId} {tx : IngestTx} {load : Load}
    {membershipId : Id} (h : step w a = some w') (ha : Assigns w a w' i tx load membershipId) :
    openCounts w'.base.db.conversations tx.request.channel.workspaceId membershipId =
      openCounts w.base.db.conversations tx.request.channel.workspaceId membershipId + 1 := by
  obtain ⟨⟨conversationId, createdAt, assignee, rfl⟩, ⟨replyTo, hcall⟩, hchoice,
    ⟨result, hdone⟩⟩ := ha
  simp only [step] at h
  split at h
  · next hawaits =>
      obtain ⟨base, hbase, rfl⟩ := Option.map_eq_some_iff.mp h
      have hassignee : assignee = some membershipId := by
        simp only [awaits, hcall, hchoice, Choice.assignee?, decide_eq_true_eq,
          Option.some.injEq] at hawaits
        exact hawaits.symm
      simp only [Conversations.step, stepCommitIngest, hcall] at hbase
      split at hbase
      · next db result' hdb =>
          cases hbase
          obtain ⟨c, t, hin⟩ := ingested_of_eq_some hdb
          exact openCounts_created hin rfl hassignee rfl
      · cases hbase
        rw [World.unlock_call, World.setCall_self] at hdone
        cases hdone
  · cases h

/-- Along every run the cap is kept at the commits exactly as long as at each of them
the check of the counts still passes. -/
theorem along_capKept_iff (w : World) (as : List Action) :
    machine.Along CapKept w as ↔ machine.Along StillBelow w as := by
  refine Machine.along_iff (I := fun _ => True) (fun _ _ _ _ _ => trivial) ?_ trivial
  intro w a w' _ hs
  constructor
  · intro hkept i tx load membershipId ha henabled
    have hcount := hkept i tx load membershipId ha henabled
    rw [openCounts_assigned hs ha] at hcount
    exact hcount
  · intro hbelow i tx load membershipId ha henabled
    rw [openCounts_assigned hs ha]
    exact hbelow i tx load membershipId ha henabled

/-! ## Where the counts stay right -/

/-- The counts that a choice goes by. -/
def Choice.load? : Choice → Option Load
  | .preferring load _ _ => some load
  | .recalling load _ _ => some load
  | .chosen load _ => some load
  | _ => none

/-- The ingest is looking for its conversation. -/
def searches : Call → Bool
  | .locked _ _ => true
  | .resolving _ => true
  | .threading _ _ => true
  | .targeted _ _ => true
  | _ => false

/-- The transaction of an ingest that found no conversation and has not committed. -/
def creates? : Call → Option IngestTx
  | .resolved tx none => some tx
  | .writing tx none _ => some tx
  | _ => none

/-- While an ingest stands between its count and its commit, no agent of the workspace
gets a further open conversation. -/
def Uncrossed (w : World) (_ : Action) (w' : World) : Prop :=
  ∀ i tx load, creates? (w.base.call i) = some tx → creates? (w'.base.call i) = some tx →
    (w.choice i).load? = some load → (w'.choice i).load? = some load →
      ∀ membershipId,
        openCounts w'.base.db.conversations tx.request.channel.workspaceId membershipId ≤
          openCounts w.base.db.conversations tx.request.channel.workspaceId membershipId

/-- Every choice honours the cap, and no agent has more open conversations than an
ingest counted that has not committed. -/
structure Counted (w : World) : Prop where
  honours : w.Honours
  searching : ∀ i, searches (w.base.call i) = true → w.choice i = .start
  counts : ∀ i tx load, creates? (w.base.call i) = some tx → (w.choice i).load? = some load →
    ∀ membershipId,
      openCounts w.base.db.conversations tx.request.channel.workspaceId membershipId ≤
        load membershipId

theorem counted_init {w : World} (h0 : ∀ i, w.choice i = .start) : Counted w where
  honours i := by
    rw [h0 i]
    trivial
  searching i _ := h0 i
  counts i tx load _ hload := by
    rw [h0 i] at hload
    cases hload

theorem creates?_of_creating {w : World} {i : CallId} {tx : IngestTx}
    (h : w.creating? i = some tx) :
    creates? (w.base.call i) = some tx ∧ searches (w.base.call i) = false := by
  unfold World.creating? at h
  split at h
  next hcall =>
    cases h
    rw [hcall]
    exact ⟨rfl, rfl⟩
  next => cases h

section Moves

variable {w : Conversations.World} {a : Conversations.Action} {c : Call}

/-- Before a call looked for a conversation it looked already, or waited for its lock. -/
theorem searches_of_moved (h : Moved w a c) (hc : searches c = true) :
    searches (w.call a.call) = true ∨ a = .lock a.call := by
  cases h with
  | lock _ => exact Or.inr rfl
  | readSender hcall =>
      left
      simp only [Conversations.Action.call, hcall, searches]
  | follows hcall =>
      left
      simp only [Conversations.Action.call, hcall, searches]
  | readTarget hcall =>
      left
      simp only [Conversations.Action.call, hcall, searches]
  | _ => cases hc

/-- Before an ingest was about to create a conversation it was so already, or looked
for one. -/
theorem creates?_of_moved {tx : IngestTx} (h : Moved w a c) (hc : creates? c = some tx) :
    creates? (w.call a.call) = some tx ∨ searches (w.call a.call) = true := by
  cases h with
  | readOpen hcall _ =>
      right
      simp only [Conversations.Action.call, hcall, searches]
  | readThread hcall _ =>
      right
      simp only [Conversations.Action.call, hcall, searches]
  | noTarget hcall =>
      right
      simp only [Conversations.Action.call, hcall, searches]
  | readConversation hcall =>
      right
      simp only [Conversations.Action.call, hcall, searches]
  | @readReplyTarget i tx' read hcall =>
      cases read with
      | none =>
          left
          simp only [Conversations.Action.call, hcall]
          exact hc
      | some conversation => cases hc
  | _ => cases hc

end Moves

section Counted

variable {w w' : World}

/-- An ingest that read something for its choice. -/
theorem Counted.setChoice (h : Counted w) {i : CallId} {tx : IngestTx} {c : Choice}
    (hcreating : w.creating? i = some tx) (hhonours : (w.setChoice i c).Honours)
    (hc : ∀ load, c.load? = some load → ∀ membershipId,
      openCounts w.base.db.conversations tx.request.channel.workspaceId membershipId ≤
        load membershipId) : Counted (w.setChoice i c) where
  honours := hhonours
  searching j hj := by
    have hsearches : searches (w.base.call j) = true := hj
    have hne : j ≠ i := by
      rintro rfl
      rw [(creates?_of_creating hcreating).2] at hsearches
      cases hsearches
    show Function.update w.choice i c j = .start
    rw [Function.update_of_ne hne]
    exact h.searching j hsearches
  counts j tx' load hj hload := by
    have hcreates : creates? (w.base.call j) = some tx' := hj
    have hload : (Function.update w.choice i c j).load? = some load := hload
    by_cases hji : j = i
    · subst hji
      rw [(creates?_of_creating hcreating).1] at hcreates
      cases hcreates
      rw [Function.update_self] at hload
      exact hc load hload
    · rw [Function.update_of_ne hji] at hload
      exact h.counts j tx' load hcreates hload

/-- A step of the other calls, after which no choice goes by counts it did not go by
before. -/
theorem Counted.moves (h : Counted w) {base : Conversations.World} {b : Conversations.Action}
    (hbase : Conversations.step w.base b = some base) (hw' : w'.base = base)
    (hhonours : w'.Honours)
    (hkept : ∀ j, w'.choice j = w.choice j ∨ w'.choice j = .start)
    (hlock : b = .lock b.call → w'.choice b.call = .start)
    (huncrossed : ∀ j tx load, creates? (w.base.call j) = some tx →
      creates? (w'.base.call j) = some tx → (w.choice j).load? = some load →
      (w'.choice j).load? = some load → ∀ membershipId,
        openCounts w'.base.db.conversations tx.request.channel.workspaceId membershipId ≤
          openCounts w.base.db.conversations tx.request.channel.workspaceId membershipId) :
    Counted w' where
  honours := hhonours
  searching j hj := by
    rw [hw'] at hj
    have hbefore : searches (w.base.call j) = true → w'.choice j = .start := fun hsearches => by
      rcases hkept j with hsame | hstart
      · rw [hsame]
        exact h.searching j hsearches
      · exact hstart
    rcases call_of_step (searches · = true) hbase hj with hold | ⟨rfl, c, hmoved, hc⟩
    · exact hbefore hold
    · rcases searches_of_moved hmoved hc with hold | hlocks
      · exact hbefore hold
      · exact hlock hlocks
  counts j tx load hj hload := by
    have hload' : (w.choice j).load? = some load := by
      rcases hkept j with hsame | hstart
      · rw [← hsame]
        exact hload
      · rw [hstart] at hload
        cases hload
    have hcreates : creates? (w.base.call j) = some tx := by
      have hsearch : searches (w.base.call j) ≠ true := fun hsearches => by
        rw [h.searching j hsearches] at hload'
        cases hload'
      have hj' := hj
      rw [hw'] at hj'
      rcases call_of_step (creates? · = some tx) hbase hj' with hold | ⟨rfl, c, hmoved, hc⟩
      · exact hold
      · exact (creates?_of_moved hmoved hc).resolve_right hsearch
    intro membershipId
    exact (huncrossed j tx load hcreates hj hload' hload membershipId).trans
      (h.counts j tx load hcreates hload' membershipId)

theorem load_afterPreference {settings : InboxSettings} {load load' : Load} {first : Id}
    {rest : List Id} (h : (afterPreference settings load first rest).load? = some load') :
    load' = load := by
  unfold afterPreference at h
  split at h
  next => exact (Option.some.inj h).symm
  next => exact (Option.some.inj h).symm

theorem load_afterCounts {settings : InboxSettings} {candidates : List Id} {load load' : Load}
    (h : (afterCounts settings candidates load).load? = some load') : load' = load := by
  unfold afterCounts at h
  split at h
  next => cases h
  next =>
    split at h
    next => exact (Option.some.inj h).symm
    next => exact load_afterPreference h

theorem load_afterPrevious {settings : InboxSettings} {load load' : Load} {first : Id}
    {rest : List Id} {previous : Option Conversation}
    (h : (afterPrevious settings load first rest previous).load? = some load') : load' = load := by
  unfold afterPrevious at h
  split at h
  next => exact (Option.some.inj h).symm
  next => exact load_afterPreference h

theorem counted_step {a : Action} (h : Counted w) (hs : step w a = some w')
    (huncrossed : Uncrossed w a w') : Counted w' := by
  have hhonours := honours_step h.honours hs
  cases a with
  | ingest i request settings =>
      obtain ⟨base, hbase, rfl⟩ := Option.map_eq_some_iff.mp hs
      refine h.moves hbase rfl hhonours (fun j => ?_) (fun hlock => by cases hlock) huncrossed
      by_cases hj : j = i
      · rw [hj]
        exact Or.inr (Function.update_self ..)
      · exact Or.inl (Function.update_of_ne hj ..)
  | readMembers i candidates =>
      simp only [step] at hs
      split at hs
      next tx hcreating _ =>
        cases hs
        refine h.setChoice hcreating hhonours fun load hload => ?_
        unfold afterMembers at hload
        split at hload
        · cases hload
        · split at hload
          · cases hload
          · cases hload
      next => cases hs
  | readCounts i =>
      simp only [step] at hs
      split at hs
      next tx candidates hcreating _ =>
        cases hs
        refine h.setChoice hcreating hhonours fun load hload membershipId => ?_
        rw [load_afterCounts hload]
      next => cases hs
  | readPrevious i found =>
      simp only [step] at hs
      split at hs
      next tx load first rest hcreating hchoice =>
        split at hs
        next =>
          cases hs
          refine h.setChoice hcreating hhonours fun load' hload => ?_
          rw [load_afterPrevious hload]
          exact h.counts i tx load (creates?_of_creating hcreating).1 (by rw [hchoice]; rfl)
        next => cases hs
      next => cases hs
  | readRecent i =>
      simp only [step] at hs
      split at hs
      next tx load first rest hcreating hchoice =>
        cases hs
        refine h.setChoice hcreating hhonours fun load' hload => ?_
        cases hload
        exact h.counts i tx load (creates?_of_creating hcreating).1 (by rw [hchoice]; rfl)
      next => cases hs
  | other b =>
      simp only [step] at hs
      split at hs
      next =>
        obtain ⟨base, hbase, rfl⟩ := Option.map_eq_some_iff.mp hs
        refine h.moves hbase rfl hhonours (fun j => ?_) (fun hlock => ?_) huncrossed
        · change choiceAfter w.choice b j = w.choice j ∨ choiceAfter w.choice b j = .start
          unfold choiceAfter
          split
          · next i _ =>
              by_cases hj : j = i
              · rw [hj]
                exact Or.inr (Function.update_self ..)
              · exact Or.inl (Function.update_of_ne hj ..)
          · exact Or.inl rfl
        · change choiceAfter w.choice b b.call = .start
          rw [hlock]
          exact Function.update_self ..
      next => cases hs

end Counted

/-- In a run that begins without choices, the check of the counts still passes at
every commit, if between the count of an ingest and its commit no agent of the
workspace gets a further open conversation. -/
theorem along_stillBelow_of_uncrossed {w : World} {as : List Action}
    (h0 : ∀ i, w.choice i = .start) (h : machine.Along Uncrossed w as) :
    machine.Along StillBelow w as := by
  refine Machine.along_of_along (I := Counted) (fun w a w' hI hs huncrossed => ?_)
    (counted_init h0) h
  refine ⟨counted_step hI hs huncrossed, fun i tx load membershipId ha henabled => ?_⟩
  obtain ⟨replyTo, hcall⟩ := ha.writing
  have hbelow : load membershipId < (w.inbox i).maxConversationsPerAgent := by
    have hhonours := hI.honours i
    rw [ha.choice] at hhonours
    exact hhonours henabled
  have hcounted := hI.counts i tx load (by rw [hcall]; rfl) (by rw [ha.choice]; rfl) membershipId
  exact Nat.lt_of_le_of_lt hcounted hbelow

/-! ## Two senders and one agent -/

/-- One conversation at a time. -/
def exampleSettings : Json :=
  .object [("maxConversationsEnabled", .bool true),
    ("maxConversationsPerAgent", .number (.finite 1))]

/-- The first message of a sender. -/
def firstMessage (sender : String) : IngestRequest where
  channel := exampleChannel
  message := { providerMessageId := sender, sender := { identifier := sender },
               timestamp := 1, content := .text "Hello" }
  providerEventId := sender
  messageId := sender

/-- An ingest of such a message up to its choice. -/
def chooses (i : CallId) (sender : String) : List Action :=
  [.ingest i (firstMessage sender) exampleSettings, .other (.lock i),
    .other (.readSender i 10 ("contact-" ++ sender) ("identity-" ++ sender)),
    .other (.readOpen i []), .readMembers i ["agent"], .readCounts i]

/-- The rest of the ingest. -/
def commits (i : CallId) (sender : String) (assignee : Option Id) : List Action :=
  [.other (.readReplyTarget i), .other (.commitIngest i ("conversation-" ++ sender) 20 assignee)]

def World.init : World := ⟨Conversations.World.init, fun _ => .null, fun _ => .start⟩

/-- The call whose commit creates a conversation for an agent, with the
transaction and the agent. -/
def assignment? (w : World) : Action → World → Option (CallId × IngestTx × Load × Id)
  | .other (.commitIngest i _ _ _), w' =>
      match w.base.call i, w.choice i, w'.base.call i with
      | .writing tx none _, .chosen load membershipId, .ingested request _ =>
          if request = tx.request then some (i, tx, load, membershipId) else none
      | _, _, _ => none
  | _, _ => none

theorem assignment_eq_some {w w' : World} {a : Action} {i : CallId} {tx : IngestTx} {load : Load}
    {membershipId : Id} :
    assignment? w a w' = some (i, tx, load, membershipId) ↔
      Assigns w a w' i tx load membershipId := by
  constructor
  · intro h
    unfold assignment? at h
    split at h
    · split at h
      · next hcall hchoice hdone =>
          split at h
          · next hsame =>
              cases h
              exact ⟨⟨_, _, _, rfl⟩, ⟨_, hcall⟩, hchoice, ⟨_, hsame ▸ hdone⟩⟩
          · cases h
      · cases h
    · cases h
  · rintro ⟨⟨conversationId, createdAt, assignee, rfl⟩, ⟨replyTo, hcall⟩, hchoice, ⟨result, hdone⟩⟩
    simp only [assignment?, hcall, hchoice, hdone, if_true]

/-- A test for steps at which the check of the counts still passes. -/
def stillBelowTest (e : World × Action × World) : Bool :=
  (assignment? e.1 e.2.1 e.2.2).all fun (i, tx, _, membershipId) =>
    openCounts e.1.base.db.conversations tx.request.channel.workspaceId membershipId <
      (e.1.inbox i).maxConversationsPerAgent

theorem stillBelow_of_test {e : World × Action × World} (h : stillBelowTest e = true) :
    StillBelow e.1 e.2.1 e.2.2 := by
  intro i tx load membershipId ha _
  rw [stillBelowTest, assignment_eq_some.mpr ha, Option.all_some, decide_eq_true_eq] at h
  exact h

/-- One sender after the other: the second finds the agent at the cap. -/
theorem along_capKept_inTurn : machine.Along CapKept World.init
    (chooses 0 "a" ++ commits 0 "a" (some "agent") ++ (chooses 1 "b" ++ commits 1 "b" none)) := by
  have htest : ((machine.trace World.init (chooses 0 "a" ++ commits 0 "a" (some "agent") ++
      (chooses 1 "b" ++ commits 1 "b" none))).all stillBelowTest) = true := by decide
  refine (along_capKept_iff _ _).mpr ?_
  exact Machine.along_of_trace fun e he => stillBelow_of_test (List.all_eq_true.mp htest e he)

/-- Both count before either commits. -/
def bothChoose : List Action :=
  chooses 0 "a" ++ chooses 1 "b" ++ commits 0 "a" (some "agent") ++ [.other (.readReplyTarget 1)]

/-- Two first messages of different senders give the only agent two open
conversations, where the cap is one. -/
theorem not_along_capKept : ∃ as, ¬ machine.Along CapKept World.init as := by
  have hlast : ((machine.run World.init bothChoose).bind fun w =>
      (machine.step w (.other (.commitIngest 1 "conversation-b" 20 (some "agent")))).map fun w' =>
        (assignment? w (.other (.commitIngest 1 "conversation-b" 20 (some "agent"))) w').map
          fun (i, tx, _, membershipId) =>
            ((w.inbox i).maxConversationsEnabled, (w.inbox i).maxConversationsPerAgent,
              openCounts w'.base.db.conversations tx.request.channel.workspaceId membershipId)) =
      some (some (true, 1, 2)) := by
    decide
  obtain ⟨w, w', hw, hw', hview⟩ := Machine.exists_last hlast
  obtain ⟨⟨i, tx, load, membershipId⟩, hassigns, hcounts⟩ := Option.map_eq_some_iff.mp hview
  simp only [Prod.mk.injEq] at hcounts
  obtain ⟨henabled, hcap, hcount⟩ := hcounts
  refine ⟨bothChoose ++ [.other (.commitIngest 1 "conversation-b" 20 (some "agent"))], ?_⟩
  intro hall
  have hkept := hall.last hw hw' i tx load membershipId (assignment_eq_some.mp hassigns) henabled
  rw [hcap, hcount] at hkept
  exact absurd hkept (by decide)

end Vynor.Conversations.Assignment
