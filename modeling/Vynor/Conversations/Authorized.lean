import Vynor.Conversations.Commits
import Vynor.Conversations.Routes

/-!
# What the routes show and change

A request is granted what the guards saw: an active user with the subject of a
verified token, who was an active member of the workspace with the permissions of
the route.  Whatever the API shows of a conversation and whatever it changes there
was granted in the workspace of that conversation (`agents_authorized`).
-/

namespace Vynor.Conversations

open Lib (Machine Table)

/-! ## What a request is granted -/

abbrev Event := Server × ServerAction × Server

section Granted

variable {ω : Type} (S : Api ω)

/-- The request came with a token that was verified. -/
def Signs (e : Event) (r : RequestId) (route : Route) (auth : Iam.Authentication) : Prop :=
  ∃ headers now generated, e.2.1 = .request r route headers now generated ∧
    Iam.authenticate S.jwt now generated headers = .ok auth

/-- The guard saw the user of the token, who is active. -/
def Knows (e : Event) (r : RequestId) (auth : Iam.Authentication) (user : Iam.UserProfile) :
    Prop :=
  (∃ now, e.2.1 = .readUser r now) ∧ user ∈ e.1.directory.users.rows ∧
    auth.sub = some user.supabaseAuthId ∧ user.isActive = true ∧ user.deletedAt = none

/-- The guard saw an active membership of the user with these permissions. -/
def Belongs (e : Event) (r : RequestId) (user : Iam.UserProfile) (workspaceId : Id)
    (permissions : List String) : Prop :=
  (∃ now, e.2.1 = .readMembership r now) ∧ ∃ m ∈ e.1.directory.memberships.rows,
    m.userProfileId = user.id ∧ m.workspaceId = workspaceId ∧ m.status = .active ∧
      m.deletedAt = none ∧ Iam.permissionsOf m.roles = permissions

/-- In the history the request was verified, then its user was seen, then the
user's membership. -/
def Granted (t : List Event) (r : RequestId) (workspaceId : Id) (permissions : List String) :
    Prop :=
  ∃ e₁ e₂ e₃ route auth user, [e₁, e₂, e₃].Sublist t ∧ Signs S e₁ r route auth ∧
    Knows e₂ r auth user ∧ Belongs e₃ r user workspaceId permissions

/-- A request was granted these permissions at least. -/
def Authorized (t : List Event) (r : RequestId) (workspaceId : Id) (needed : List String) : Prop :=
  ∃ permissions, Granted S t r workspaceId permissions ∧
    ∀ p ∈ needed, Iam.hasPermission permissions p = true

/-- The member was seen, active, in the workspace. -/
def Assignable (t : List Event) (workspaceId membershipId : Id) : Prop :=
  ∃ e ∈ t, ∃ m ∈ e.1.directory.memberships.rows,
    m.id = membershipId ∧ m.workspaceId = workspaceId ∧ m.status = .active ∧ m.deletedAt = none

/-- What changing a conversation like this asks for. -/
def needed (c c' : Conversation) : List String :=
  (if c'.assigneeMembershipId = c.assigneeMembershipId then []
    else ["conversation:write", "conversation:assign"]) ++
  (if c'.status = c.status then [] else ["conversation:write"]) ++
  (if c'.status = .resolved ∧ c.status ≠ .resolved then ["conversation:close"] else []) ++
  if c'.lastMessageAt = c.lastMessageAt then [] else ["message:send"]

/-- What writing a message asks for. -/
def neededFor (m : Message) : String :=
  if m.senderType = .system then "conversation:write" else "message:send"

/-- A request that has ended only showed what it was granted. -/
def Outcome.Sound (t : List Event) (db : Db) (r : RequestId) : Outcome → Prop
  | .conversations shown _ => ∀ c ∈ shown, Authorized S t r c.workspaceId ["conversation:read"]
  | .messages conversationId page =>
      ∃ c, db.conversations.find? conversationId = some c ∧
        Authorized S t r c.workspaceId ["message:read"] ∧
        ∀ m ∈ page.data, m.conversationId = conversationId
  | _ => True

variable {S}

theorem Granted.mono {t t' : List Event} {r : RequestId} {workspaceId : Id}
    {permissions : List String} (h : Granted S t r workspaceId permissions)
    (ht : t.Sublist t') : Granted S t' r workspaceId permissions := by
  obtain ⟨e₁, e₂, e₃, route, auth, user, hsub, hrest⟩ := h
  exact ⟨e₁, e₂, e₃, route, auth, user, hsub.trans ht, hrest⟩

theorem Authorized.mono {t t' : List Event} {r : RequestId} {workspaceId : Id}
    {needed needed' : List String} (h : Authorized S t r workspaceId needed)
    (ht : t.Sublist t') (hneeded : needed' ⊆ needed) :
    Authorized S t' r workspaceId needed' := by
  obtain ⟨permissions, hgranted, hall⟩ := h
  exact ⟨permissions, hgranted.mono ht, fun p hp => hall p (hneeded hp)⟩

theorem Assignable.mono {t t' : List Event} {workspaceId membershipId : Id}
    (h : Assignable t workspaceId membershipId) (ht : t ⊆ t') :
    Assignable t' workspaceId membershipId := by
  obtain ⟨e, he, hrest⟩ := h
  exact ⟨e, ht he, hrest⟩

end Granted

/-! ## Conversations keep their workspace -/

theorem findConversation_eq_some {db : Db} {actor : Actor} {id : Id} {c : Conversation} :
    findConversation db actor id = some c ↔
      db.conversations.find? id = some c ∧ c.workspaceId = actor.workspaceId := by
  rw [findConversation, Option.filter_eq_some_iff, decide_eq_true_eq]

/-- No step of the world moves a conversation to another workspace. -/
theorem workspace_kept {w w' : World} {a : Action} {id : Id} {c : Conversation}
    (h : Conversations.step w a = some w') (hc : w.db.conversations.find? id = some c) :
    ∃ c', w'.db.conversations.find? id = some c' ∧ c'.workspaceId = c.workspaceId := by
  rcases step_cases h with ⟨hdb, _⟩ | ⟨e, _, hcommit⟩
  · rw [hdb]
    exact ⟨c, hc, rfl⟩
  · obtain ⟨c', hc', hchange⟩ := hcommit.row hc
    refine ⟨c', hc', ?_⟩
    cases hchange <;> rfl

/-! ## Calls that were begun -/

/-- What an update writes asks for these permissions. -/
def Change.needed (ch : Change) : List String :=
  (if ch.assigneeMembershipId.isSome then ["conversation:assign"] else []) ++
  if ch.status.map Prod.fst = some .resolved then ["conversation:close"] else []

section Plan

variable {actor : Actor} {c : Conversation} {request : UpdateConversationRequest}
  {member : Option (Id × String)} {now : Date}

theorem planAssignee_eq_some {assignee : Option (Option Id)} {events : List String}
    (h : planAssignee actor c request member = some (assignee, events))
    (hset : assignee.isSome = true) :
    actor.canAssign = true ∧ assignee = request.assigneeMembershipId ∧
      ((truthy assignee.join).isSome = true → member.isSome = true) := by
  unfold planAssignee at h
  split at h
  next =>
    cases h
    cases hset
  next requested hrequested =>
    split at h
    next =>
      cases h
      cases hset
    next =>
      split at h
      next => cases h
      next hassign =>
        have hcan : actor.canAssign = true := by simpa using hassign
        split at h
        next hnone =>
          cases h
          refine ⟨hcan, hrequested.symm, fun hsome => ?_⟩
          rw [Option.join_some, hnone] at hsome
          cases hsome
        next => cases h
        next =>
          cases h
          exact ⟨hcan, hrequested.symm, fun _ => rfl⟩

theorem planStatus_eq_some {status : Option (ConversationStatus × Option Date)}
    {events : List String} (h : planStatus actor c request now = some (status, events))
    (hresolved : status.map Prod.fst = some .resolved) : actor.canClose = true := by
  unfold planStatus at h
  split at h
  next =>
    cases h
    cases hresolved
  next =>
    split at h
    next =>
      cases h
      cases hresolved
    next =>
      split at h
      next => cases h
      next hallowed =>
        cases h
        simp only [Option.map_some, Option.some.injEq] at hresolved
        simpa [hresolved] using hallowed

end Plan

/-! ## What holds between the steps -/

section Sound

variable {ω : Type} (S : Api ω)

/-- What is about to be written was granted in the workspace of the conversation. -/
def Acting (t : List Event) (db : Db) : Call → Prop
  | .marking id => ∃ c r, db.conversations.find? id = some c ∧
      Authorized S t r c.workspaceId ["conversation:read"]
  | .sending d => ∃ c r, db.conversations.find? d.conversation.id = some c ∧
      c.workspaceId = d.conversation.workspaceId ∧
      Authorized S t r c.workspaceId ["message:send"]
  | .updating ch => ∃ c r, db.conversations.find? ch.conversation.id = some c ∧
      c.workspaceId = ch.conversation.workspaceId ∧
      Authorized S t r c.workspaceId ("conversation:write" :: ch.needed) ∧
      ∀ m, ch.assigneeMembershipId = some (some m) → m ≠ "" → Assignable t c.workspaceId m
  | _ => True

/-- How far the guards have come with a request. -/
def Standing.Sound (t : List Event) (db : Db) (r : RequestId) : Standing → Prop
  | .idle => True
  | .authenticated route auth => ∃ e, [e].Sublist t ∧ Signs S e r route auth
  | .userFound route auth user =>
      ∃ e₁ e₂, [e₁, e₂].Sublist t ∧ Signs S e₁ r route auth ∧ Knows e₂ r auth user
  | .workspaceFound route auth user _ =>
      ∃ e₁ e₂, [e₁, e₂].Sublist t ∧ Signs S e₁ r route auth ∧ Knows e₂ r auth user
  | .admitted route actor => Granted S t r actor.workspace.id actor.permissions ∧
      ∀ p ∈ route.requiredPermissions, Iam.hasPermission actor.permissions p = true
  | .ended outcome => outcome.Sound S t db r

structure Server.Sound (t : List Event) (s : Server) : Prop where
  standing : ∀ r, (s.standing r).Sound S t s.world.db r
  call : ∀ i, Acting S t s.world.db (s.world.call i)

theorem Server.sound_start (directory : Iam.Database) (db : Db) :
    Server.Sound S [] (.start directory db) where
  standing := fun _ => trivial
  call := fun _ => trivial

variable {S} {t t' : List Event} {s s' : Server} {r : RequestId}

/-- A later database has the conversations, in their workspaces. -/
def Follows (db db' : Db) : Prop :=
  ∀ id c, db.conversations.find? id = some c →
    ∃ c', db'.conversations.find? id = some c' ∧ c'.workspaceId = c.workspaceId

theorem Follows.refl (db : Db) : Follows db db := fun _ c hc => ⟨c, hc, rfl⟩

theorem Acting.mono {db db' : Db} {call : Call} (h : Acting S t db call) (ht : t.Sublist t')
    (hdb : Follows db db') : Acting S t' db' call := by
  cases call with
  | marking id =>
      obtain ⟨c, r, hc, hauth⟩ := h
      obtain ⟨c', hc', hworkspace⟩ := hdb id c hc
      rw [← hworkspace] at hauth
      exact ⟨c', r, hc', hauth.mono ht (fun _ hp => hp)⟩
  | sending d =>
      obtain ⟨c, r, hc, hsame, hauth⟩ := h
      obtain ⟨c', hc', hworkspace⟩ := hdb _ c hc
      rw [← hworkspace] at hauth hsame
      exact ⟨c', r, hc', hsame, hauth.mono ht (fun _ hp => hp)⟩
  | updating ch =>
      obtain ⟨c, r, hc, hsame, hauth, hmember⟩ := h
      obtain ⟨c', hc', hworkspace⟩ := hdb _ c hc
      rw [← hworkspace] at hauth hsame hmember
      exact ⟨c', r, hc', hsame, hauth.mono ht (fun _ hp => hp),
        fun m hm hne => (hmember m hm hne).mono ht.subset⟩
  | _ => trivial

theorem Standing.Sound.mono {db db' : Db} {standing : Standing}
    (h : standing.Sound S t db r) (ht : t.Sublist t') (hdb : Follows db db') :
    standing.Sound S t' db' r := by
  cases standing with
  | idle => trivial
  | authenticated route auth =>
      obtain ⟨e, hsub, hrest⟩ := h
      exact ⟨e, hsub.trans ht, hrest⟩
  | userFound route auth user =>
      obtain ⟨e₁, e₂, hsub, hrest⟩ := h
      exact ⟨e₁, e₂, hsub.trans ht, hrest⟩
  | workspaceFound route auth user workspaceId =>
      obtain ⟨e₁, e₂, hsub, hrest⟩ := h
      exact ⟨e₁, e₂, hsub.trans ht, hrest⟩
  | admitted route actor => exact ⟨h.1.mono ht, h.2⟩
  | ended outcome =>
      cases outcome with
      | conversations shown nextCursor =>
          exact fun c hc => (h c hc).mono ht (fun _ hp => hp)
      | messages conversationId page =>
          obtain ⟨c, hc, hauth, hpage⟩ := h
          obtain ⟨c', hc', hworkspace⟩ := hdb _ c hc
          rw [← hworkspace] at hauth
          exact ⟨c', hc', hauth.mono ht (fun _ hp => hp), hpage⟩
      | _ => trivial

theorem Server.Sound.later (h : s.Sound S t) (ht : t.Sublist t') : s.Sound S t' where
  standing := fun r => (h.standing r).mono ht (.refl _)
  call := fun i => (h.call i).mono ht (.refl _)

/-- One request comes to another point. -/
theorem Server.Sound.move (h : s.Sound S t) {standing : Standing}
    (hstanding : standing.Sound S t s.world.db r) : (s.move r standing).Sound S t := by
  refine ⟨fun q => ?_, h.call⟩
  change (Function.update s.standing r standing q).Sound S t s.world.db q
  by_cases hq : q = r
  · subst hq
    rw [Function.update_self]
    exact hstanding
  · rw [Function.update_of_ne hq]
    exact h.standing q

/-- One call of the world moves. -/
theorem Server.Sound.world (h : s.Sound S t) {a : Action} {world : World}
    (hs : Conversations.step s.world a = some world)
    (hcall : Acting S t world.db (world.call a.call)) :
    ({ s with world := world } : Server).Sound S t := by
  have hdb : Follows s.world.db world.db := fun id c hc => workspace_kept hs hc
  refine ⟨fun q => (h.standing q).mono (.refl t) hdb, fun i => ?_⟩
  change Acting S t world.db (world.call i)
  by_cases hi : i = a.call
  · rw [hi]
    exact hcall
  · rw [step_call_other hs hi]
    exact (h.call i).mono (.refl t) hdb

/-- A call that no route begins is at no point where agents write, or has been
there. -/
theorem acting_of_work {w w' : World} {a : Action} (hs : Conversations.step w a = some w')
    (ha : a.isAgents = false) (db : Db) : Acting S t db (w'.call a.call) := by
  have hmoved := step_moved hs
  revert hmoved
  generalize w'.call a.call = c
  intro hmoved
  cases hmoved with
  | plansMarkRead => cases ha
  | plansSend => cases ha
  | plansUpdate => cases ha
  | _ => trivial

end Sound

/-! ## The pages -/

section Pages

variable {ω : Type} [LinearOrder ω] {collation : Collation ω}

/-- A page of conversations shows rows that the query selects. -/
theorem selects_of_mem_page {t : Conversations} {selects : Conversation → Bool}
    {cursor : Option Id} {limit take : Nat} {c : Conversation}
    (hc : c ∈ (conversationPage id limit
      (findConversations collation t selects cursor take)).data) :
    selects c = true := by
  have hrows : c ∈ findConversations collation t selects cursor take := by
    rw [conversationPage, List.map_id] at hc
    exact List.mem_of_mem_take hc
  have hsorted : ∀ d ∈ (t.rows.filter selects).mergeSort (recentFirst collation),
      selects d = true := fun d hd => (List.mem_filter.mp (List.mem_mergeSort.mp hd)).2
  unfold findConversations at hrows
  split at hrows
  next => exact hsorted c (List.mem_of_mem_take hrows)
  next =>
    split at hrows
    next => cases hrows
    next =>
      have hdropped := List.mem_of_mem_drop (List.mem_of_mem_take hrows)
      exact hsorted c (List.mem_filter.mp hdropped).1

/-- A page of messages shows those of its conversation. -/
theorem conversationId_of_mem_page {db : Db} {conversationId : Id} {before : Option Before}
    {limit take : Nat} {m : Message}
    (hm : m ∈ (messagePage (fun m => m) limit
      (findMessages collation db conversationId before take)).data) :
    m.conversationId = conversationId := by
  rw [messagePage, List.map_id', List.mem_reverse] at hm
  have hrow := List.mem_mergeSort.mp (List.mem_of_mem_take (List.mem_of_mem_take hm))
  have htest := (List.mem_filter.mp hrow).2
  rw [Bool.and_eq_true, decide_eq_true_eq] at htest
  exact htest.1

end Pages

/-! ## One step -/

section Begin

variable {ω : Type} {S : Api ω} {t : List Event} {r : RequestId}
  {actor : Iam.ActorContext} {w w' : World} {i : CallId}

theorem acting_of_markRead {id : Id}
    (hs : Conversations.step w (.markRead i (agentOf actor) id) = some w')
    (hauth : Authorized S t r actor.workspace.id ["conversation:read"]) :
    Acting S t w'.db (w'.call i) := by
  simp only [Conversations.step] at hs
  split at hs
  next =>
    split at hs
    next =>
      cases hs
      rw [World.setCall_self]
      trivial
    next c hfound =>
      cases hs
      obtain ⟨hc, hworkspace⟩ := findConversation_eq_some.mp hfound
      rw [World.setCall_self]
      split
      next => trivial
      next =>
        refine ⟨c, r, ?_, ?_⟩
        · rw [Conversation.id_of_find? hc]
          exact hc
        · rw [hworkspace]
          exact hauth
  next => cases hs

theorem acting_of_send {channel : ProviderAccount} {conversationId id : Id}
    {body : SendMessageRequest} {now : Date}
    (hs : Conversations.step w (.send i (agentOf actor) channel conversationId body id now)
      = some w')
    (hauth : Authorized S t r actor.workspace.id ["message:send"]) :
    Acting S t w'.db (w'.call i) := by
  simp only [Conversations.step] at hs
  split at hs
  next =>
    split at hs
    next =>
      cases hs
      rw [World.setCall_self]
      trivial
    next c hfound =>
      split at hs
      next =>
        cases hs
        obtain ⟨hc, hworkspace⟩ := findConversation_eq_some.mp hfound
        rw [World.setCall_self]
        split
        next =>
          refine ⟨c, r, ?_, rfl, ?_⟩
          · change w.db.conversations.find? c.id = some c
            rw [Conversation.id_of_find? hc]
            exact hc
          · rw [hworkspace]
            exact hauth
        next => trivial
      next => cases hs
  next => cases hs

/-- The member that an update found was seen in the directory. -/
theorem assignable_of_findMember {e : Event} {request : UpdateConversationRequest}
    {membershipId : Id} {agent : Actor} (he : e ∈ t)
    (hrequest : request.assigneeMembershipId = some (some membershipId))
    (hne : membershipId ≠ "")
    (hfound : (findMember e.1.directory agent request).isSome = true) :
    Assignable t agent.workspaceId membershipId := by
  obtain ⟨found, hfound⟩ := Option.isSome_iff_exists.mp hfound
  have htruthy : truthy request.assigneeMembershipId.join = some membershipId := by
    rw [hrequest, Option.join_some]
    exact truthy_eq_some.mpr ⟨rfl, hne⟩
  rw [findMember, htruthy, Option.bind_some] at hfound
  obtain ⟨m, hm, -⟩ := Option.bind_eq_some_iff.mp hfound
  obtain ⟨hrow, htest⟩ := Option.filter_eq_some_iff.mp hm
  obtain ⟨hmem, hkey⟩ := Table.find?_eq_some.mp hrow
  simp only [Bool.and_eq_true, decide_eq_true_eq, Option.isNone_iff_eq_none] at htest
  refine ⟨e, he, m, hmem, ?_, htest.1.1, htest.1.2, htest.2⟩
  simpa [Iam.WorkspaceMembership.keys, eq_comm] using hkey

theorem acting_of_update {e : Event} {id : Id} {body : UpdateConversationRequest} {now : Date}
    (he : e ∈ t)
    (hs : Conversations.step w (.update i (agentOf actor) id body
      (findMember e.1.directory (agentOf actor) body) now) = some w')
    (hgranted : Granted S t r actor.workspace.id actor.permissions)
    (hwrite : Iam.hasPermission actor.permissions "conversation:write" = true) :
    Acting S t w'.db (w'.call i) := by
  simp only [Conversations.step] at hs
  split at hs
  next =>
    split at hs
    next =>
      cases hs
      rw [World.setCall_self]
      trivial
    next c hfound =>
      obtain ⟨hc, hworkspace⟩ := findConversation_eq_some.mp hfound
      split at hs
      next =>
        cases hs
        rw [World.setCall_self]
        trivial
      next ch hplan =>
        cases hs
        rw [World.setCall_self]
        split
        next => trivial
        next =>
          simp only [planUpdate, Option.bind_eq_bind, Option.bind_eq_some_iff] at hplan
          obtain ⟨⟨assignee, events⟩, hassignee, ⟨status, events'⟩, hstatus, heq⟩ := hplan
          cases heq
          refine ⟨c, r, ?_, rfl, ⟨actor.permissions, ?_, fun p hp => ?_⟩, ?_⟩
          · change w.db.conversations.find? c.id = some c
            rw [Conversation.id_of_find? hc]
            exact hc
          · rw [hworkspace]
            exact hgranted
          · simp only [Change.needed, List.mem_cons, List.mem_append] at hp
            rcases hp with rfl | hp | hp
            · exact hwrite
            · split at hp
              next hset =>
                rw [List.mem_singleton.mp hp]
                exact (planAssignee_eq_some hassignee hset).1
              next => cases hp
            · split at hp
              next hresolved =>
                rw [List.mem_singleton.mp hp]
                exact planStatus_eq_some hstatus hresolved
              next => cases hp
          · intro m hm hne
            change assignee = some (some m) at hm
            obtain ⟨-, hrequest, hmember⟩ :=
              planAssignee_eq_some hassignee (by rw [hm]; rfl)
            rw [hworkspace]
            refine assignable_of_findMember he (hrequest.symm.trans hm) hne (hmember ?_)
            rw [hm, Option.join_some, truthy_eq_some.mpr ⟨rfl, hne⟩]
            rfl
  next => cases hs

end Begin

/-- The end of a handler that only reads. -/
theorem sound_readOutcome {ω : Type} [LinearOrder ω] {S : Api ω} {t : List Event} {r : RequestId}
    {actor : Iam.ActorContext} {db : Db} {route : Route} {outcome : Outcome}
    (h : S.readOutcome db (agentOf actor) route = some outcome)
    (hgranted : Granted S t r actor.workspace.id actor.permissions)
    (hall : ∀ p ∈ route.requiredPermissions, Iam.hasPermission actor.permissions p = true) :
    outcome.Sound S t db r := by
  have hauth : Authorized S t r actor.workspace.id route.requiredPermissions :=
    ⟨actor.permissions, hgranted, hall⟩
  cases route with
  | list query =>
      cases h
      split
      next page hpage =>
        obtain ⟨cursor, -, rfl⟩ := Option.map_eq_some_iff.mp hpage
        intro c hc
        have hselected := selects_of_mem_page hc
        simp only [ListConversationsQuery.selects, Bool.and_eq_true, decide_eq_true_eq]
          at hselected
        rw [hselected.1.1.1.1]
        exact hauth
      next => trivial
  | get id =>
      cases h
      split
      next c hc =>
        intro d hd
        rw [List.mem_singleton.mp hd, (findConversation_eq_some.mp hc).2]
        exact hauth
      next => trivial
  | messages id query =>
      cases h
      split
      next page hpage =>
        unfold listMessages at hpage
        split at hpage
        next => cases hpage
        next c hc =>
          obtain ⟨hrow, hworkspace⟩ := findConversation_eq_some.mp hc
          refine ⟨c, hrow, ?_, ?_⟩
          · rw [hworkspace]
            exact hauth
          · split at hpage
            next =>
              cases hpage
              exact fun m hm => conversationId_of_mem_page hm
            next =>
              split at hpage
              next => cases hpage
              next =>
                cases hpage
                exact fun m hm => conversationId_of_mem_page hm
      next => trivial
  | update id body => cases h
  | markRead id => cases h
  | send id body => cases h

section Run

variable {ω : Type} {S : Api ω} {t : List Event} {s s' : Server}

/-- A lookup of the guard that succeeds leads on; one that does not refuses. -/
theorem sound_afterLookup {α : Type} {auth : Iam.Authentication} {now : Date}
    {next : α → Standing} {result : Except Iam.IamException α} {db : Db} {r : RequestId}
    (h : ∀ a, result = .ok a → (next a).Sound S t db r) :
    (Api.afterLookup auth now next result).Sound S t db r := by
  cases result with
  | ok a => exact h a rfl
  | error exception => trivial

/-- The server after a handler began a call. -/
theorem Server.Sound.begin {r : RequestId} {i : CallId} {a : Action}
    (h : s.Sound S t) (hs : Api.begin s r i a = some s') (ha : a.call = i)
    (hcall : ∀ world, Conversations.step s.world a = some world →
      Acting S t world.db (world.call i)) : s'.Sound S t := by
  obtain ⟨world, hworld, rfl⟩ := Option.map_eq_some_iff.mp hs
  have hmoved : (s.move r (.ended (.began i))).Sound S t := h.move trivial
  refine hmoved.world hworld ?_
  rw [ha]
  exact hcall world hworld

variable [LinearOrder ω]

/-- `last` is the step as the history has it. -/
theorem sound_step {a : ServerAction} {last : Event} (h : s.Sound S t)
    (hs : S.step s a = some s') (hstate : last.1 = s) (haction : last.2.1 = a) :
    s'.Sound S (t ++ [last]) := by
  subst hstate
  have hlater : last.1.Sound S (t ++ [last]) := h.later (List.sublist_append_left _ _)
  have hlast : ∀ {events : List Event}, events.Sublist t →
      (events ++ [last]).Sublist (t ++ [last]) := fun hsub => hsub.append (.refl _)
  cases a with
  | request r route headers now generated =>
      simp only [Api.step] at hs
      split at hs
      next =>
        cases hs
        refine hlater.move ?_
        split
        next auth hauth =>
          exact ⟨last, hlast (List.nil_sublist t), headers, now, generated, haction, hauth⟩
        next => trivial
      next => cases hs
  | readUser r now =>
      simp only [Api.step] at hs
      split at hs
      next route auth hstanding =>
        cases hs
        have hbefore := h.standing r
        rw [hstanding] at hbefore
        obtain ⟨e, hsub, hsigns⟩ := hbefore
        refine hlater.move ?_
        split
        next => trivial
        next sub hsub' =>
          refine sound_afterLookup fun user huser => ?_
          obtain ⟨hmem, hid, hactive, hdeleted⟩ := Iam.user_of_active huser
          refine ⟨e, last, hlast hsub, hsigns, ⟨now, haction⟩, hmem, ?_, hactive, hdeleted⟩
          rw [hsub', hid]
      next => cases hs
  | readWorkspace r found now =>
      simp only [Api.step] at hs
      split at hs
      next route auth user hstanding =>
        split at hs
        next =>
          cases hs
          have hbefore := hlater.standing r
          rw [hstanding] at hbefore
          exact hlater.move (sound_afterLookup fun workspaceId _ => hbefore)
        next => cases hs
      next => cases hs
  | readMembership r now =>
      simp only [Api.step] at hs
      split at hs
      next route auth user workspaceId hstanding =>
        cases hs
        have hbefore := h.standing r
        rw [hstanding] at hbefore
        obtain ⟨e₁, e₂, hsub, hsigns, hknows⟩ := hbefore
        refine hlater.move (sound_afterLookup fun membership hmembership => ?_)
        obtain ⟨-, huser, hactive, hdeleted⟩ := Iam.activeMembership_eq_ok hmembership
        split
        next hpermit =>
          refine ⟨⟨e₁, e₂, last, route, auth, user, hlast hsub, hsigns, hknows, ⟨now, haction⟩,
            membership.1, membership.2, huser, ?_, hactive, hdeleted, rfl⟩, ?_⟩
          · exact (last.1.directory.id_workspace membership.2).symm
          · exact Iam.hasPermission_of_permit (fun hpublic => by cases hpublic) rfl hpermit
        next => trivial
      next => cases hs
  | read r =>
      simp only [Api.step] at hs
      split at hs
      next route actor hstanding =>
        obtain ⟨outcome, houtcome, rfl⟩ := Option.map_eq_some_iff.mp hs
        have hbefore := hlater.standing r
        rw [hstanding] at hbefore
        exact hlater.move (sound_readOutcome houtcome hbefore.1 hbefore.2)
      next => cases hs
  | markRead r i =>
      simp only [Api.step] at hs
      split at hs
      next id actor hstanding =>
        have hbefore := hlater.standing r
        rw [hstanding] at hbefore
        exact hlater.begin hs rfl fun world hworld =>
          acting_of_markRead hworld ⟨_, hbefore.1, hbefore.2⟩
      next => cases hs
  | send r i channel id now =>
      simp only [Api.step] at hs
      split at hs
      next conversationId body actor hstanding =>
        have hbefore := hlater.standing r
        rw [hstanding] at hbefore
        exact hlater.begin hs rfl fun world hworld =>
          acting_of_send hworld ⟨_, hbefore.1, hbefore.2⟩
      next => cases hs
  | update r i now =>
      have hmem : last ∈ t ++ [last] := List.mem_append_right _ (List.mem_singleton_self _)
      simp only [Api.step] at hs
      split at hs
      next id body actor hstanding =>
        have hbefore := hlater.standing r
        rw [hstanding] at hbefore
        exact hlater.begin hs rfl fun world hworld =>
          acting_of_update hmem hworld hbefore.1 (hbefore.2 _ (List.mem_singleton_self _))
      next => cases hs
  | throws r =>
      simp only [Api.step] at hs
      split at hs
      next => cases hs
      next => cases hs
      next =>
        cases hs
        exact hlater.move trivial
  | work a =>
      simp only [Api.step] at hs
      split at hs
      next => cases hs
      next ha =>
        obtain ⟨world, hworld, rfl⟩ := Option.map_eq_some_iff.mp hs
        exact hlater.world hworld
          (acting_of_work hworld (Bool.not_eq_true _ ▸ ha) _)
  | administer directory =>
      cases hs
      exact ⟨hlater.standing, hlater.call⟩

theorem sound_run {directory : Iam.Database} {db : Db} {as : List ServerAction}
    (hrun : S.machine.run (.start directory db) as = some s) :
    s.Sound S (S.machine.trace (.start directory db) as) :=
  Machine.invariant_trace (M := S.machine) (fun _ _ _ _ h hs => sound_step h hs rfl rfl)
    (Server.sound_start S directory db) hrun

end Run

/-! ## What is changed -/

theorem needed_answered (now : Date) (text : String) (c : Conversation) :
    needed c (answered now text c) ⊆ ["message:send"] := by
  intro p hp
  simp only [needed, List.mem_append] at hp
  rcases hp with ((hp | hp) | hp) | hp
  · split at hp
    next => cases hp
    next hne => exact absurd rfl hne
  · split at hp
    next => cases hp
    next hne => exact absurd rfl hne
  · rw [if_neg fun h => h.2 h.1] at hp
    cases hp
  · split at hp
    next => cases hp
    next => exact hp

theorem needed_markedRead (c : Conversation) : needed c (markedRead c) = [] := by
  simp only [needed, markedRead, if_true, List.nil_append, List.append_nil]
  exact if_neg fun h => h.2 h.1

theorem needed_changed (ch : Change) (c : Conversation) :
    needed c (changed ch c) ⊆ "conversation:write" :: ch.needed := by
  intro p hp
  simp only [needed, List.mem_append] at hp
  simp only [Change.needed, List.mem_cons, List.mem_append]
  rcases hp with ((hp | hp) | hp) | hp
  · split at hp
    next => cases hp
    next hassigned =>
      have hset : ch.assigneeMembershipId.isSome = true := by
        cases hassignee : ch.assigneeMembershipId with
        | some assignee => rfl
        | none =>
            rw [changed, hassignee] at hassigned
            exact absurd rfl hassigned
      rw [if_pos hset]
      rcases List.mem_cons.mp hp with rfl | hp
      · exact Or.inl rfl
      · exact Or.inr (Or.inl hp)
  · split at hp
    next => cases hp
    next => exact Or.inl (List.mem_singleton.mp hp)
  · split at hp
    next hresolved =>
      have hset : ch.status.map Prod.fst = some .resolved := by
        cases hstatus : ch.status with
        | none =>
            rw [changed, hstatus] at hresolved
            exact absurd hresolved.1 hresolved.2
        | some status =>
            rw [changed, hstatus] at hresolved
            exact congrArg some hresolved.1
      rw [if_pos hset]
      exact Or.inr (Or.inr hp)
    next => cases hp
  · split at hp
    next => cases hp
    next hne => exact absurd rfl hne

/-- A step of the server moves the world by one step at most. -/
theorem world_of_step {ω : Type} [LinearOrder ω] {S : Api ω} {s s' : Server} {a : ServerAction}
    (hs : S.step s a = some s') :
    s'.world = s.world ∨
      ∃ b, (b.isAgents = true ∨ a = .work b) ∧ Conversations.step s.world b = some s'.world := by
  have hbegin : ∀ {r i b}, Api.begin s r i b = some s' →
      Conversations.step s.world b = some s'.world := by
    intro r i b h
    obtain ⟨world, hworld, rfl⟩ := Option.map_eq_some_iff.mp h
    exact hworld
  cases a with
  | markRead r i =>
      simp only [Api.step] at hs
      split at hs
      next => exact Or.inr ⟨_, Or.inl rfl, hbegin hs⟩
      next => cases hs
  | send r i channel id now =>
      simp only [Api.step] at hs
      split at hs
      next => exact Or.inr ⟨_, Or.inl rfl, hbegin hs⟩
      next => cases hs
  | update r i now =>
      simp only [Api.step] at hs
      split at hs
      next => exact Or.inr ⟨_, Or.inl rfl, hbegin hs⟩
      next => cases hs
  | work b =>
      simp only [Api.step] at hs
      split at hs
      next => cases hs
      next =>
        obtain ⟨world, hworld, rfl⟩ := Option.map_eq_some_iff.mp hs
        exact Or.inr ⟨b, Or.inr rfl, hworld⟩
  | read r =>
      simp only [Api.step] at hs
      split at hs
      next =>
        obtain ⟨outcome, _, rfl⟩ := Option.map_eq_some_iff.mp hs
        exact Or.inl rfl
      next => cases hs
  | request r route headers now generated =>
      simp only [Api.step] at hs
      split at hs
      next =>
        cases hs
        exact Or.inl rfl
      next => cases hs
  | readUser r now =>
      simp only [Api.step] at hs
      split at hs
      next =>
        cases hs
        exact Or.inl rfl
      next => cases hs
  | readWorkspace r found now =>
      simp only [Api.step] at hs
      split at hs
      next =>
        split at hs
        next =>
          cases hs
          exact Or.inl rfl
        next => cases hs
      next => cases hs
  | readMembership r now =>
      simp only [Api.step] at hs
      split at hs
      next =>
        cases hs
        exact Or.inl rfl
      next => cases hs
  | throws r =>
      simp only [Api.step] at hs
      split at hs
      next => cases hs
      next => cases hs
      next =>
        cases hs
        exact Or.inl rfl
  | administer directory =>
      cases hs
      exact Or.inl rfl

section Changes

variable {ω : Type} {S : Api ω} {t : List Event} {w w' : World} {a : Action}

/-- The row of a conversation that is new or another than before was written by an
ingest or by a request. -/
theorem row_authorized (hcalls : ∀ i, Acting S t w.db (w.call i))
    (hs : Conversations.step w a = some w') {id : Id} {c' : Conversation}
    (hc' : w'.db.conversations.find? id = some c')
    (hnew : w.db.conversations.find? id ≠ some c') :
    (∃ i conversationId createdAt assignee,
        a = .commitIngest i conversationId createdAt assignee) ∨
      ∃ c r, w.db.conversations.find? id = some c ∧
        Authorized S t r c.workspaceId (needed c c') ∧
        ∀ m, c'.assigneeMembershipId = some m → c.assigneeMembershipId ≠ some m → m ≠ "" →
          Assignable t c.workspaceId m := by
  rcases step_cases hs with ⟨hdb, _⟩ | ⟨e, _, hcommit⟩
  · rw [hdb] at hc'
    exact absurd hc' hnew
  · cases hc : w.db.conversations.find? id with
    | none =>
        obtain ⟨i, conversationId, createdAt, assignee, _, _, ha, _⟩ := hcommit.new_row hc hc'
        exact Or.inl ⟨i, conversationId, createdAt, assignee, ha⟩
    | some c =>
        have hid := Conversation.id_of_find? hc
        obtain ⟨r', hr', hchange⟩ := hcommit.row hc
        rw [hc'] at hr'
        cases hr'
        cases hchange with
        | other => exact absurd hc hnew
        | note => exact absurd hc hnew
        | ingest => exact Or.inl ⟨_, _, _, _, rfl⟩
        | @send i createdAt d _ hcall hsame _ =>
            have hacting := hcalls i
            rw [hcall] at hacting
            obtain ⟨row, r, hrow, -, hauth⟩ := hacting
            rw [hsame, hid, hc] at hrow
            cases hrow
            refine Or.inr ⟨c, r, rfl, hauth.mono (.refl t) (needed_answered _ _ c), ?_⟩
            exact fun m hm hne => absurd hm hne
        | @markRead i =>
            cases hcommit with
            | markRead hcall _ =>
                have hacting := hcalls i
                rw [hcall] at hacting
                obtain ⟨row, r, hrow, hauth⟩ := hacting
                rw [hid, hc] at hrow
                cases hrow
                refine Or.inr ⟨c, r, rfl, hauth.mono (.refl t) ?_, ?_⟩
                · rw [needed_markedRead]
                  exact List.nil_subset _
                · exact fun m hm hne => absurd hm hne
        | @update i ids createdAt ch _ hcall hsame =>
            have hacting := hcalls i
            rw [hcall] at hacting
            obtain ⟨row, r, hrow, -, hauth, hmember⟩ := hacting
            rw [hsame, hid, hc] at hrow
            cases hrow
            refine Or.inr ⟨c, r, rfl, hauth.mono (.refl t) (needed_changed ch c), ?_⟩
            intro m hm hne
            refine hmember m ?_
            change ch.assigneeMembershipId.getD c.assigneeMembershipId = some m at hm
            cases hassignee : ch.assigneeMembershipId with
            | none =>
                rw [hassignee] at hm
                exact absurd hm hne
            | some assignee =>
                rw [hassignee] at hm
                exact congrArg some hm

/-- A message that is new was written by an ingest or by a request. -/
theorem message_authorized (hcalls : ∀ i, Acting S t w.db (w.call i))
    (hs : Conversations.step w a = some w') {m : Message} (hm : m ∈ w'.db.messages.rows)
    (hnew : m ∉ w.db.messages.rows) :
    (∃ i conversationId createdAt assignee,
        a = .commitIngest i conversationId createdAt assignee) ∨
      ∃ r, Authorized S t r m.workspaceId [neededFor m] := by
  rcases step_cases hs with ⟨hdb, _⟩ | ⟨e, _, hcommit⟩
  · rw [hdb] at hm
    exact absurd hm hnew
  · obtain ⟨added, hrows, hadded⟩ := hcommit.messages
    rw [hrows] at hm
    have hm' := (List.mem_append.mp hm).resolve_left hnew
    cases hcommit with
    | ingest => exact Or.inl ⟨_, _, _, _, rfl⟩
    | @send i createdAt d _ hcall hdb =>
        have hacting := hcalls i
        rw [hcall] at hacting
        obtain ⟨c, r, -, hsame, hauth⟩ := hacting
        have hinserted := (Table.insert?_eq_some.mp (commitSend_eq_some hdb).1).2
        rw [hinserted, List.append_cancel_left_eq] at hrows
        rw [← hrows] at hm'
        rw [List.mem_singleton.mp hm']
        refine Or.inr ⟨r, ?_⟩
        rw [hsame] at hauth
        exact hauth
    | markRead _ _ =>
        cases hadded
        cases hm'
    | @update i ids createdAt ch _ hcall hdb =>
        have hacting := hcalls i
        rw [hcall] at hacting
        obtain ⟨c, r, -, hsame, hauth, -⟩ := hacting
        have hinserted := rows_of_insertAll (commitUpdate_eq_some hdb).2.1
        rw [hinserted, List.append_cancel_left_eq] at hrows
        rw [← hrows] at hm'
        obtain ⟨entry, -, rfl⟩ := List.mem_map.mp hm'
        refine Or.inr ⟨r, ?_⟩
        rw [hsame] at hauth
        refine hauth.mono (.refl t) fun p hp => ?_
        rw [List.mem_singleton.mp hp]
        exact List.mem_cons_self

end Changes

/-- In every run of the API, whatever users, memberships and roles become while it
goes on, a request that has ended only showed conversations and messages of a
workspace that was granted to it with `conversation:read` or `message:read`.  A step
that writes a conversation or a message commits an ingest, or was granted in the
workspace of the conversation with the permissions that the change asks for, and
whoever is assigned was seen as an active member of that workspace. -/
theorem agents_authorized {ω : Type} [LinearOrder ω] {S : Api ω} {directory : Iam.Database}
    {db : Db} {as : List ServerAction} {s : Server}
    (hrun : S.machine.run (.start directory db) as = some s) :
    (∀ r outcome, s.standing r = .ended outcome →
      outcome.Sound S (S.machine.trace (.start directory db) as) s.world.db r) ∧
    ∀ a s', S.step s a = some s' →
      (∃ i conversationId createdAt assignee,
        a = .work (.commitIngest i conversationId createdAt assignee)) ∨
      (∀ id c', s'.world.db.conversations.find? id = some c' →
        s.world.db.conversations.find? id ≠ some c' →
        ∃ c r, s.world.db.conversations.find? id = some c ∧
          Authorized S (S.machine.trace (.start directory db) as) r c.workspaceId (needed c c') ∧
          ∀ m, c'.assigneeMembershipId = some m → c.assigneeMembershipId ≠ some m → m ≠ "" →
            Assignable (S.machine.trace (.start directory db) as) c.workspaceId m) ∧
      ∀ m ∈ s'.world.db.messages.rows, m ∉ s.world.db.messages.rows →
        ∃ r, Authorized S (S.machine.trace (.start directory db) as) r m.workspaceId
          [neededFor m] := by
  have hsound := sound_run hrun
  refine ⟨fun r outcome hended => ?_, fun a s' hs => ?_⟩
  · have hstanding := hsound.standing r
    rw [hended] at hstanding
    exact hstanding
  · rcases world_of_step hs with hsame | ⟨b, hb, hworld⟩
    · refine Or.inr ⟨fun id c' hc' hnew => ?_, fun m hm hnew => ?_⟩
      · rw [hsame] at hc'
        exact absurd hc' hnew
      · rw [hsame] at hm
        exact absurd hm hnew
    · by_cases hingest : ∃ i conversationId createdAt assignee,
          b = .commitIngest i conversationId createdAt assignee
      · obtain ⟨i, conversationId, createdAt, assignee, rfl⟩ := hingest
        exact Or.inl ⟨i, conversationId, createdAt, assignee, hb.resolve_left nofun⟩
      · exact Or.inr
          ⟨fun id c' hc' hnew =>
            (row_authorized hsound.call hworld hc' hnew).resolve_left hingest,
          fun m hm hnew =>
            (message_authorized hsound.call hworld hm hnew).resolve_left hingest⟩

/-! ## An agent who resolves a conversation -/

/-- Ann is an agent in the workspace. -/
def exampleDirectory : Iam.Database where
  users := .singleton
    { id := "ann", supabaseAuthId := "sub", email := "ann@example.com", displayName := "Ann" }
  workspaces := .singleton { id := "workspace", name := "Workspace", slug := "slug" }
  memberships := .singleton
    { id := "member", workspaceId := "workspace", userProfileId := "ann"
      roles := [⟨"AGENT", ["conversation:write", "conversation:close"]⟩] }
  conversations := Table.empty
  workspaceOf := by
    intro m hm
    rw [List.mem_singleton.mp hm]
    exact ⟨_, rfl⟩

def exampleApi : Api String where
  jwt := ⟨fun _ token => if token = "token" then .ok (some "sub") else .error .other,
    fun _ _ => .error .other⟩
  collation := textOrder
  search := ⟨fun _ _ => false, fun _ _ => false⟩
  dates := ⟨fun _ => none⟩

/-- Her request, up to the transaction.  By then she is no member any more. -/
def resolves : List ServerAction :=
  [.request 0 (.update "c" { status := some .resolved })
      { authorization := some "Bearer token" } 1 "generated",
    .readUser 0 1, .readWorkspace 0 none 1, .readMembership 0 1, .update 0 0 1,
    .administer { exampleDirectory with
      memberships := .empty
      workspaceOf := fun _ hm => (List.not_mem_nil hm).elim }]

/-- The conversation is resolved with what she was granted. -/
theorem resolved_authorized : ∃ s s' c',
    exampleApi.machine.run (.start exampleDirectory assignedDb) resolves = some s ∧
    exampleApi.step s (.work (.commitUpdate 0 ["u"] 1)) = some s' ∧
    s'.world.db.conversations.find? "c" = some c' ∧ c'.status = .resolved ∧
    ∃ r, Authorized exampleApi
      (exampleApi.machine.trace (.start exampleDirectory assignedDb) resolves) r "workspace"
      ["conversation:write", "conversation:close"] := by
  have hlast : ((exampleApi.machine.run (.start exampleDirectory assignedDb) resolves).bind
      fun s => (exampleApi.machine.step s (.work (.commitUpdate 0 ["u"] 1))).map fun s' =>
        (s.world.db.conversations.find? "c", s'.world.db.conversations.find? "c")) =
      some (some assignedConversation,
        some { assignedConversation with status := .resolved, resolvedAt := some 1 }) := by
    decide
  obtain ⟨s, s', hrun, hs, hview⟩ := Machine.exists_last hlast
  change exampleApi.step s (.work (.commitUpdate 0 ["u"] 1)) = some s' at hs
  obtain ⟨hbefore, hafter⟩ := Prod.mk.inj hview
  refine ⟨s, s', _, hrun, hs, hafter, rfl, ?_⟩
  rcases (agents_authorized hrun).2 _ _ hs with ⟨_, _, _, _, hingest⟩ | ⟨hrows, _⟩
  · cases hingest
  · obtain ⟨c, r, hc, hauth, _⟩ := hrows "c" _ hafter (by rw [hbefore]; decide)
    rw [hbefore] at hc
    cases hc
    exact ⟨r, hauth⟩

end Vynor.Conversations
