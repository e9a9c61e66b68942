import Vynor.Iam.ActorContext

/-!
# Actors and deleted workspaces

Two ways to name a workspace lead to one `ActorContext`.  The lookup by id or
slug passes over workspaces that are deleted; the list of the user's memberships
does not, so a user whose only active membership is in a deleted workspace is
resolved there without an identifier, and denied access by its id.

`resolveActorContext_eq_ok` says what a resolved actor is, whichever way the
workspace was named; the rest compares the two ways.
-/

namespace Vynor.Iam

open Lib

/-! ## What is looked up -/

/-- An active user that is not deleted is the user of its authentication. -/
theorem activeUser_of_mem {db : Database} {u : UserProfile} (hu : u ∈ db.users.rows)
    (hactive : u.isActive = true) (hdeleted : u.deletedAt = none) :
    activeUser db u.supabaseAuthId = .ok u :=
  activeUser_eq_ok_iff.mpr
    ⟨Table.find?_eq_some.mpr ⟨hu, by simp [UserProfile.keys]⟩, hdeleted, hactive⟩

/-- The workspace of a membership is the row its foreign key names. -/
theorem Database.workspace_mem (db : Database) {m : WorkspaceMembership}
    (hm : m ∈ db.memberships.rows) : db.workspace hm ∈ db.workspaces.rows :=
  (Table.find?_eq_some.mp (Option.some_get _).symm).1

/-- A workspace is found by its id alone. -/
theorem Database.eq_of_workspaceId {db : Database} {w w' : Workspace} (hw : w ∈ db.workspaces.rows)
    (hw' : w' ∈ db.workspaces.rows) (hid : w.id = w'.id) : w = w' := by
  refine Table.eq_of_shared_key (k := .id w.id) hw hw' ?_ ?_
  · simp [Workspace.keys]
  · simp [Workspace.keys, hid]

/-- The active membership of a user in a workspace is the row the lookup by both
finds. -/
theorem activeMembership_of_mem {db : Database} {m : WorkspaceMembership}
    (hm : m ∈ db.memberships.rows) (hactive : m.status = .active) (hdeleted : m.deletedAt = none) :
    activeMembership db m.workspaceId m.userProfileId = .ok ⟨m, hm⟩ := by
  have hfind : db.memberships.find? (.workspaceUser m.workspaceId m.userProfileId) = some m :=
    Table.find?_eq_some.mpr ⟨hm, by simp [WorkspaceMembership.keys]⟩
  unfold activeMembership
  split
  · next hnone =>
      rw [hfind] at hnone
      cases hnone
  · next membership hsome =>
      rw [hfind] at hsome
      cases hsome
      simp [hdeleted, hactive]

theorem mem_activeMemberships {db : Database} {userProfileId : Id} {m : WorkspaceMembership} :
    m ∈ db.activeMemberships userProfileId ↔
      m ∈ db.memberships.rows ∧ m.userProfileId = userProfileId ∧ m.deletedAt = none ∧
        m.status = .active := by
  simp [Database.activeMemberships, and_assoc]

/-- A resolved actor, whichever way the workspace was named. -/
theorem resolveActorContext_eq_ok {db : Database} {supabaseAuthId : String}
    {workspaceIdentifier : Option String} {found : Option Workspace} {correlationId : String}
    {actor : ActorContext} :
    resolveActorContext db supabaseAuthId workspaceIdentifier found correlationId = .ok actor ↔
      ∃ u m, ∃ hm : m ∈ db.memberships.rows,
        activeUser db supabaseAuthId = .ok u ∧
        targetWorkspaceId db u workspaceIdentifier found = .ok m.workspaceId ∧
        m ∈ db.activeMemberships u.id ∧
        actor = actorContext u (db.workspace hm) m correlationId := by
  constructor
  · intro h
    obtain ⟨u, huser, h⟩ := exists_of_bind_ok h
    obtain ⟨workspaceId, htarget, h⟩ := exists_of_bind_ok h
    obtain ⟨⟨m, hm⟩, hmembership, h⟩ := exists_of_bind_ok h
    obtain ⟨hworkspace, hmember, hactive, hdeleted⟩ := activeMembership_eq_ok hmembership
    refine ⟨u, m, hm, huser, ?_, mem_activeMemberships.mpr ⟨hm, hmember, hdeleted, hactive⟩, ?_⟩
    · rw [htarget, ← hworkspace]
    · exact (Except.ok.inj h).symm
  · rintro ⟨u, m, hm, huser, htarget, hactive, rfl⟩
    obtain ⟨_, hmember, hdeleted, hstatus⟩ := mem_activeMemberships.mp hactive
    have hmembership : activeMembership db m.workspaceId u.id = .ok ⟨m, hm⟩ := by
      rw [← hmember]
      exact activeMembership_of_mem hm hstatus hdeleted
    simp only [resolveActorContext, huser, htarget, hmembership, bind, Except.bind]

/-! ## The two ways -/

/-- The lookup by id or slug, which is made only with an identifier, can return
this. -/
def Database.Looks (db : Database) (workspaceIdentifier : Option String)
    (found : Option Workspace) : Prop :=
  ∀ identifier, truthy workspaceIdentifier = some identifier → db.finds identifier found = true

/-- The actor is an active user that is not deleted, with an active membership
that is not deleted in a workspace that is not deleted. -/
structure Database.Live (db : Database) (supabaseAuthId : String) (actor : ActorContext) :
    Prop where
  user : ∃ u ∈ db.users.rows, u.supabaseAuthId = supabaseAuthId ∧ u.id = actor.user.id ∧
    u.isActive = true ∧ u.deletedAt = none
  member : ∃ m ∈ db.memberships.rows, m.id = actor.membership.id ∧
    m.userProfileId = actor.user.id ∧ m.workspaceId = actor.workspace.id ∧ m.status = .active ∧
      m.deletedAt = none
  workspace : ∃ w ∈ db.workspaces.rows, w.id = actor.workspace.id ∧ w.deletedAt = none

/-- The actors have the same workspace, membership and permissions. -/
structure ActorContext.SameAccess (actor actor' : ActorContext) : Prop where
  workspace : actor.workspace = actor'.workspace
  membership : actor.membership = actor'.membership
  permissions : actor.permissions = actor'.permissions

/-- Access of this user is to live workspaces only, and the same by the id of a
workspace as without an identifier. -/
structure Database.GrantsLive (db : Database) (supabaseAuthId : String) : Prop where
  live : ∀ workspaceIdentifier found correlationId actor, db.Looks workspaceIdentifier found →
    resolveActorContext db supabaseAuthId workspaceIdentifier found correlationId = .ok actor →
      db.Live supabaseAuthId actor
  sameById : ∀ missing found correlationId actor, truthy missing = none →
    resolveActorContext db supabaseAuthId missing found correlationId = .ok actor →
      ∀ found' correlationId', db.Looks (some actor.workspace.id) found' →
        ∃ actor', resolveActorContext db supabaseAuthId (some actor.workspace.id) found'
          correlationId' = .ok actor' ∧ actor.SameAccess actor'

/-- Where an active user that is not deleted has exactly one active membership
that is not deleted, its workspace is not deleted, and its id is not the slug of
another workspace that is not deleted.  (An empty id is no identifier.) -/
def Database.OnlyWorkspaceLive (db : Database) (supabaseAuthId : String) : Prop :=
  ∀ u ∈ db.users.rows, u.supabaseAuthId = supabaseAuthId → u.isActive = true → u.deletedAt = none →
    ∀ m, db.activeMemberships u.id = [m] →
      ∀ w ∈ db.workspaces.rows, w.id = m.workspaceId →
        w.deletedAt = none ∧
          (w.id ≠ "" → ∀ w' ∈ db.workspaces.rows, w'.slug = w.id → w'.deletedAt = none → w' = w)

section Compare

variable {db : Database} {supabaseAuthId : String} {u : UserProfile} {m : WorkspaceMembership}

theorem targetWorkspaceId_missing {missing : Option String} (hmissing : truthy missing = none)
    {found : Option Workspace} {workspaceId : Id} :
    targetWorkspaceId db u missing found = .ok workspaceId ↔
      ∃ m, db.activeMemberships u.id = [m] ∧ m.workspaceId = workspaceId := by
  rw [targetWorkspaceId, hmissing]
  rcases hlist : db.activeMemberships u.id with _ | ⟨m, _ | ⟨next, rest⟩⟩
  · simp
  · simp
  · simp

theorem targetWorkspaceId_named {workspaceIdentifier : Option String} {identifier : String}
    (hidentifier : truthy workspaceIdentifier = some identifier) {found : Option Workspace}
    {workspaceId : Id} :
    targetWorkspaceId db u workspaceIdentifier found = .ok workspaceId ↔
      ∃ w, found = some w ∧ w.id = workspaceId := by
  rw [targetWorkspaceId, hidentifier]
  cases found with
  | none => simp
  | some w => simp

/-- What the lookup returns is named by the identifier and not deleted. -/
theorem named_of_finds {identifier : String} {w : Workspace}
    (h : db.finds identifier (some w) = true) :
    w ∈ db.workspaces.rows ∧ (w.id = identifier ∨ w.slug = identifier) ∧ w.deletedAt = none := by
  simpa [Database.finds, Workspace.isNamed, and_assoc] using h

theorem finds_of_named {identifier : String} {w : Workspace} (hw : w ∈ db.workspaces.rows)
    (hname : w.id = identifier ∨ w.slug = identifier) (hdeleted : w.deletedAt = none) :
    db.finds identifier (some w) = true := by
  simpa [Database.finds, Workspace.isNamed, hw, hdeleted] using hname

/-- A lookup finds a row that is there. -/
theorem none_not_found {w : Workspace} (hw : w ∈ db.workspaces.rows) (hdeleted : w.deletedAt = none) :
    ¬ db.finds w.id none = true := by
  simp only [Database.finds, List.all_eq_true, Bool.not_eq_true']
  intro h
  have hnamed := h w hw
  simp [Workspace.isNamed, hdeleted] at hnamed

/-- The call without an identifier, for a user with one active membership. -/
theorem resolve_missing {missing : Option String} (hmissing : truthy missing = none)
    (huser : activeUser db supabaseAuthId = .ok u) (hm : m ∈ db.memberships.rows)
    (honly : db.activeMemberships u.id = [m]) (found : Option Workspace) (correlationId : String) :
    resolveActorContext db supabaseAuthId missing found correlationId =
      .ok (actorContext u (db.workspace hm) m correlationId) := by
  refine resolveActorContext_eq_ok.mpr ⟨u, m, hm, huser, ?_, ?_, rfl⟩
  · exact (targetWorkspaceId_missing hmissing).mpr ⟨m, honly, rfl⟩
  · rw [honly]
    exact List.mem_singleton_self m

theorem mem_of_only (honly : db.activeMemberships u.id = [m]) : m ∈ db.memberships.rows :=
  (mem_activeMemberships.mp (honly ▸ List.mem_singleton_self m)).1

/-- Access is to live workspaces where the only workspace of the user is. -/
theorem live_of_onlyWorkspaceLive (h : db.OnlyWorkspaceLive supabaseAuthId)
    {workspaceIdentifier : Option String} {found : Option Workspace} {correlationId : String}
    {actor : ActorContext} (hlooks : db.Looks workspaceIdentifier found)
    (hok : resolveActorContext db supabaseAuthId workspaceIdentifier found correlationId =
      .ok actor) : db.Live supabaseAuthId actor := by
  obtain ⟨u, m, hm, huser, htarget, hmember, rfl⟩ := resolveActorContext_eq_ok.mp hok
  obtain ⟨hu, hauth, hactive, hnotDeleted⟩ := user_of_active huser
  obtain ⟨_, hprofile, hkept, hstatus⟩ := mem_activeMemberships.mp hmember
  have hid : (db.workspace hm).id = m.workspaceId := db.id_workspace hm
  refine ⟨⟨u, hu, hauth, rfl, hactive, hnotDeleted⟩,
    ⟨m, hm, rfl, hprofile, hid.symm, hstatus, hkept⟩, ?_⟩
  refine ⟨db.workspace hm, db.workspace_mem hm, rfl, ?_⟩
  cases hidentifier : truthy workspaceIdentifier with
  | none =>
      obtain ⟨m', honly, _⟩ := (targetWorkspaceId_missing hidentifier).mp htarget
      rw [honly, List.mem_singleton] at hmember
      subst hmember
      exact (h u hu hauth hactive hnotDeleted m honly _ (db.workspace_mem hm) hid).1
  | some identifier =>
      obtain ⟨w, rfl, hw⟩ := (targetWorkspaceId_named hidentifier).mp htarget
      obtain ⟨hrow, _, hlive⟩ := named_of_finds (hlooks identifier hidentifier)
      rw [db.eq_of_workspaceId (db.workspace_mem hm) hrow (hid.trans hw.symm)]
      exact hlive

/-- The id of the only workspace of the user leads to the same access. -/
theorem sameById_of_onlyWorkspaceLive (h : db.OnlyWorkspaceLive supabaseAuthId)
    {missing : Option String} {found found' : Option Workspace}
    {correlationId correlationId' : String} {actor : ActorContext} (hmissing : truthy missing = none)
    (hok : resolveActorContext db supabaseAuthId missing found correlationId = .ok actor)
    (hlooks : db.Looks (some actor.workspace.id) found') :
    ∃ actor', resolveActorContext db supabaseAuthId (some actor.workspace.id) found'
      correlationId' = .ok actor' ∧ actor.SameAccess actor' := by
  obtain ⟨u, m, hm, huser, htarget, hmember, rfl⟩ := resolveActorContext_eq_ok.mp hok
  obtain ⟨hu, hauth, hactive, hnotDeleted⟩ := user_of_active huser
  obtain ⟨m', honly, _⟩ := (targetWorkspaceId_missing hmissing).mp htarget
  rw [honly, List.mem_singleton] at hmember
  subst hmember
  have hw := db.workspace_mem hm
  have hid : (db.workspace hm).id = m.workspaceId := db.id_workspace hm
  obtain ⟨hlive, hslug⟩ := h u hu hauth hactive hnotDeleted m honly _ hw hid
  refine ⟨actorContext u (db.workspace hm) m correlationId', ?_, rfl, rfl, rfl⟩
  cases hidentifier : truthy (some (db.workspace hm).id) with
  | none => exact resolve_missing hidentifier huser hm honly found' correlationId'
  | some identifier =>
      obtain ⟨hname, hne⟩ := truthy_eq_some.mp hidentifier
      cases hname
      have hfound : found' = some (db.workspace hm) := by
        cases found' with
        | none => exact (none_not_found hw hlive (hlooks _ hidentifier)).elim
        | some w =>
            obtain ⟨hrow, hnamed, hkept⟩ := named_of_finds (hlooks _ hidentifier)
            rcases hnamed with hsame | hother
            · rw [db.eq_of_workspaceId hrow hw hsame]
            · rw [hslug hne w hrow hother hkept]
      refine resolveActorContext_eq_ok.mpr ⟨u, m, hm, huser, ?_, ?_, rfl⟩
      · exact (targetWorkspaceId_named hidentifier).mpr ⟨_, hfound, hid⟩
      · rw [honly]
        exact List.mem_singleton_self m

/-- The only workspace of a user with live access is live. -/
theorem onlyWorkspaceLive_of_grantsLive (h : db.GrantsLive supabaseAuthId) :
    db.OnlyWorkspaceLive supabaseAuthId := by
  intro u hu hauth hactive hnotDeleted m honly w hw hid
  subst hauth
  have huser := activeUser_of_mem hu hactive hnotDeleted
  have hm := mem_of_only honly
  have hrow : db.workspace hm = w :=
    db.eq_of_workspaceId (db.workspace_mem hm) hw ((db.id_workspace hm).trans hid.symm)
  have hnone : truthy none = none := rfl
  have hok := resolve_missing hnone huser hm honly none ""
  constructor
  · obtain ⟨w', hw', hid', hlive⟩ :=
      (h.live none none "" _ (fun _ hnone => by cases hnone) hok).workspace
    rw [← hrow, ← db.eq_of_workspaceId hw' (db.workspace_mem hm) hid']
    exact hlive
  · intro hne w' hw' hslug hkept
    have hidentifier : truthy (some (db.workspace hm).id) = some w.id :=
      truthy_eq_some.mpr ⟨congrArg (fun w => some w.id) hrow, hne⟩
    have hlooks : db.Looks (some (db.workspace hm).id) (some w') := by
      intro identifier hsome
      rw [hidentifier] at hsome
      cases hsome
      exact finds_of_named hw' (Or.inr hslug) hkept
    obtain ⟨actor', hok', hsame⟩ := h.sameById none none "" _ rfl hok (some w') "" hlooks
    obtain ⟨_, m', hm', _, htarget, _, rfl⟩ := resolveActorContext_eq_ok.mp hok'
    obtain ⟨_, heq, hid'⟩ := (targetWorkspaceId_named hidentifier).mp htarget
    cases heq
    refine db.eq_of_workspaceId hw' hw ?_
    calc w'.id = m'.workspaceId := hid'
      _ = (db.workspace hm').id := (db.id_workspace hm').symm
      _ = (db.workspace hm).id := (congrArg ActorWorkspace.id hsame.workspace).symm
      _ = w.id := congrArg Workspace.id hrow

/-- Access of a user is to live workspaces, and the same whichever way they are
named, exactly where the only workspace of the user is live. -/
theorem grantsLive_iff (db : Database) (supabaseAuthId : String) :
    db.GrantsLive supabaseAuthId ↔ db.OnlyWorkspaceLive supabaseAuthId := by
  constructor
  · exact onlyWorkspaceLive_of_grantsLive
  · intro h
    refine ⟨?_, ?_⟩
    · intro workspaceIdentifier found correlationId actor hlooks hok
      exact live_of_onlyWorkspaceLive h hlooks hok
    · intro missing found correlationId actor hmissing hok found' correlationId' hlooks
      exact sameById_of_onlyWorkspaceLive h hmissing hok hlooks

end Compare

/-! ## A workspace that was deleted -/

/-- Ann's only workspace was deleted.  Her membership was not. -/
def deletedWorkspace : Database where
  users := .singleton
    { id := "ann", supabaseAuthId := "sub", email := "ann@example.com", displayName := "Ann" }
  workspaces := .singleton
    { id := "first", name := "First", slug := "first-slug", deletedAt := some 1 }
  memberships := .singleton { id := "member", workspaceId := "first", userProfileId := "ann" }
  conversations := Table.empty
  workspaceOf := by
    intro m hm
    rw [List.mem_singleton.mp hm]
    exact ⟨_, rfl⟩

/-- Ann is resolved in the deleted workspace. -/
theorem not_grantsLive : ¬ ∀ (db : Database) (supabaseAuthId : String), db.GrantsLive supabaseAuthId := by
  intro h
  have hview : ((resolveActorContext deletedWorkspace "sub" none none "r").toOption.map
      fun actor => actor.workspace.id) = some "first" := by decide
  obtain ⟨actor, hactor, hid⟩ := Option.map_eq_some_iff.mp hview
  have hok : resolveActorContext deletedWorkspace "sub" none none "r" = .ok actor := by
    cases hres : resolveActorContext deletedWorkspace "sub" none none "r" with
    | error e =>
        rw [hres] at hactor
        cases hactor
    | ok actor' =>
        rw [hres] at hactor
        cases hactor
        rfl
  obtain ⟨w, hw, _, hlive⟩ :=
    ((h deletedWorkspace "sub").live none none "r" actor (fun _ hnone => by cases hnone) hok).workspace
  rw [List.mem_singleton.mp hw] at hlive
  cases hlive

end Vynor.Iam
