import Vynor.Schema

/-!
# Actors

`ActorContextService.resolveActorContext`: a user, a workspace named by its id or
by its slug, and the membership of the user there.

A slug may be the id of another workspace, and the lookup by either returns one
of the rows it finds.  The row it returns is an argument.
-/

namespace Vynor.Iam

open Lib

/-- A row of `user_profiles`. -/
structure UserProfile where
  id : Id
  supabaseAuthId : String
  email : String
  displayName : String
  avatarUrl : Option String := none
  isActive : Bool := true
  deletedAt : Option Date := none
deriving DecidableEq, Repr

/-- A row of `workspaces`. -/
structure Workspace where
  id : Id
  name : String
  slug : String
  timezone : String := "UTC"
  deletedAt : Option Date := none
deriving DecidableEq, Repr

/-- `MembershipStatus`. -/
inductive MembershipStatus where
  | invited
  | active
  | suspended
  | deactivated
deriving DecidableEq, Repr

/-- A role with the actions of its permissions. -/
structure Role where
  name : String
  permissions : List String
deriving DecidableEq, Repr

structure Team where
  id : Id
  name : String
deriving DecidableEq, Repr

/-- A row of `workspace_memberships` with its roles and teams. -/
structure WorkspaceMembership where
  id : Id
  workspaceId : Id
  userProfileId : Id
  status : MembershipStatus := .active
  deletedAt : Option Date := none
  roles : List Role := []
  teams : List Team := []
deriving DecidableEq, Repr

/-- A key of `user_profiles`. -/
inductive UserKey where
  | id (id : Id)
  | supabaseAuthId (supabaseAuthId : String)
  | email (email : String)
deriving DecidableEq, Repr

/-- A key of `workspaces`. -/
inductive WorkspaceKey where
  | id (id : Id)
  | slug (slug : String)
deriving DecidableEq, Repr

/-- A key of `workspace_memberships`. -/
inductive MembershipKey where
  | id (id : Id)
  | workspaceUser (workspaceId userProfileId : Id)
deriving DecidableEq, Repr

def UserProfile.keys (u : UserProfile) : List UserKey :=
  [.id u.id, .supabaseAuthId u.supabaseAuthId, .email u.email]

def Workspace.keys (w : Workspace) : List WorkspaceKey := [.id w.id, .slug w.slug]

def WorkspaceMembership.keys (m : WorkspaceMembership) : List MembershipKey :=
  [.id m.id, .workspaceUser m.workspaceId m.userProfileId]

/-- The tables, with the foreign key of a membership to its workspace. -/
structure Database where
  users : Table UserProfile UserProfile.keys
  workspaces : Table Workspace Workspace.keys
  memberships : Table WorkspaceMembership WorkspaceMembership.keys
  conversations : Conversations
  workspaceOf : ∀ m ∈ memberships.rows, ∃ w, workspaces.find? (.id m.workspaceId) = some w

/-- The workspace of a membership. -/
def Database.workspace (db : Database) {m : WorkspaceMembership} (hm : m ∈ db.memberships.rows) :
    Workspace :=
  (db.workspaces.find? (.id m.workspaceId)).get (Option.isSome_iff_exists.mpr (db.workspaceOf m hm))

/-! ## Permissions -/

/-- The actions of `CANONICAL_PERMISSIONS`. -/
def CANONICAL_PERMISSIONS : List String :=
  ["workspace:read", "workspace:update", "workspace:delete", "user:read", "user:invite",
    "user:manage", "role:read", "role:manage", "team:read", "team:manage", "conversation:read",
    "conversation:write", "conversation:assign", "conversation:close", "message:read",
    "message:send", "message:delete", "contact:read", "contact:write", "contact:delete",
    "campaign:read", "campaign:write", "campaign:launch", "analytics:read", "analytics:export",
    "integration:read", "integration:manage", "audit:read"]

/-- `hasPermission`. -/
def hasPermission (grantedPermissions : List String) (requiredPermission : String) : Bool :=
  grantedPermissions.contains "*" || grantedPermissions.contains requiredPermission

/-- The permissions of roles. -/
def permissionsOf (roles : List Role) : List String :=
  if (roles.map Role.name).contains "SUPER_ADMIN" then ("*" :: CANONICAL_PERMISSIONS).eraseDups
  else (roles.flatMap Role.permissions).eraseDups

/-! ## The actor -/

structure ActorUser where
  id : Id
  supabaseAuthId : String
  email : String
  displayName : String
  avatarUrl : Option String
  isActive : Bool
deriving DecidableEq, Repr

structure ActorWorkspace where
  id : Id
  name : String
  slug : String
  timezone : String
deriving DecidableEq, Repr

structure ActorMembership where
  id : Id
  status : MembershipStatus
  roles : List String
  teams : List Team
deriving DecidableEq, Repr

/-- `ActorContext`. -/
structure ActorContext where
  user : ActorUser
  workspace : ActorWorkspace
  membership : ActorMembership
  permissions : List String
  correlationId : String
deriving DecidableEq, Repr

/-- The codes of `IamException` that the service throws. -/
inductive IamErrorCode where
  | userAccountDisabled
  | workspaceAccessDenied
  | membershipNotFound
  | workspaceHeaderMissing
  | membershipInactive
deriving DecidableEq, Repr

/-- `IamException`. -/
structure IamException where
  code : IamErrorCode
  message : String
deriving DecidableEq, Repr

def MembershipStatus.name : MembershipStatus → String
  | .invited => "invited"
  | .active => "active"
  | .suspended => "suspended"
  | .deactivated => "deactivated"

/-- The `WHERE` of a lookup by id or slug. -/
def Workspace.isNamed (identifier : String) (w : Workspace) : Bool :=
  (w.id = identifier || w.slug = identifier) && w.deletedAt.isNone

/-- The lookup by id or slug can return this. -/
def Database.finds (db : Database) (identifier : String) : Option Workspace → Bool
  | some w => db.workspaces.rows.contains w && w.isNamed identifier
  | none => db.workspaces.rows.all fun w => !w.isNamed identifier

/-- The active memberships of a user. -/
def Database.activeMemberships (db : Database) (userProfileId : Id) : List WorkspaceMembership :=
  db.memberships.rows.filter fun m =>
    m.userProfileId = userProfileId && m.deletedAt.isNone && m.status = .active

/-- The workspace to act in: the one found under the identifier, or the only one
of the user. -/
def targetWorkspaceId (db : Database) (userProfile : UserProfile)
    (workspaceIdentifier : Option String) (found : Option Workspace) : Except IamException Id :=
  match truthy workspaceIdentifier with
  | some identifier =>
      match found with
      | none =>
          .error ⟨.workspaceAccessDenied,
            "Workspace '" ++ identifier ++ "' does not exist or access is denied."⟩
      | some workspace => .ok workspace.id
  | none =>
      match db.activeMemberships userProfile.id with
      | [] =>
          .error ⟨.membershipNotFound, "You do not have an active membership in any workspace."⟩
      | [primary] => .ok primary.workspaceId
      | _ =>
          .error ⟨.workspaceHeaderMissing,
            "Multiple active workspaces available. Please specify the target workspace via " ++
              "x-workspace-id or x-workspace-slug header."⟩

/-- The `ActorContext` of a membership. -/
def actorContext (userProfile : UserProfile) (workspace : Workspace)
    (membership : WorkspaceMembership) (correlationId : String) : ActorContext where
  user :=
    { id := userProfile.id
      supabaseAuthId := userProfile.supabaseAuthId
      email := userProfile.email
      displayName := userProfile.displayName
      avatarUrl := truthy userProfile.avatarUrl
      isActive := userProfile.isActive }
  workspace :=
    { id := workspace.id
      name := workspace.name
      slug := workspace.slug
      timezone := workspace.timezone }
  membership :=
    { id := membership.id
      status := membership.status
      roles := membership.roles.map Role.name
      teams := membership.teams }
  permissions := permissionsOf membership.roles
  correlationId := correlationId

/-- The user of an authentication. -/
def activeUser (db : Database) (supabaseAuthId : String) : Except IamException UserProfile :=
  match db.users.find? (.supabaseAuthId supabaseAuthId) with
  | none => .error ⟨.userAccountDisabled, "User profile does not exist or has been removed."⟩
  | some userProfile =>
      if userProfile.deletedAt.isSome then
        .error ⟨.userAccountDisabled, "User profile does not exist or has been removed."⟩
      else if !userProfile.isActive then
        .error ⟨.userAccountDisabled, "User account is currently deactivated."⟩
      else .ok userProfile

/-- The membership of a user in a workspace. -/
def activeMembership (db : Database) (workspaceId userProfileId : Id) :
    Except IamException { m // m ∈ db.memberships.rows } :=
  match h : db.memberships.find? (.workspaceUser workspaceId userProfileId) with
  | none => .error ⟨.membershipNotFound, "You do not belong to the requested workspace."⟩
  | some membership =>
      if membership.deletedAt.isSome then
        .error ⟨.membershipNotFound, "You do not belong to the requested workspace."⟩
      else if membership.status ≠ .active then
        .error ⟨.membershipInactive, "Your membership in this workspace is " ++
          membership.status.name ++ ". Access is denied."⟩
      else .ok ⟨membership, (Table.find?_eq_some.mp h).1⟩

/-- `resolveActorContext`, where the lookup by id or slug returned `found`. -/
def resolveActorContext (db : Database) (supabaseAuthId : String)
    (workspaceIdentifier : Option String) (found : Option Workspace) (correlationId : String) :
    Except IamException ActorContext := do
  let userProfile ← activeUser db supabaseAuthId
  let workspaceId ← targetWorkspaceId db userProfile workspaceIdentifier found
  let membership ← activeMembership db workspaceId userProfile.id
  .ok (actorContext userProfile (db.workspace membership.2) membership.1 correlationId)

/-! ## What a resolved actor is -/

/-- The user is an active and undeleted member of the workspace. -/
def Database.ActiveMember (db : Database) (userProfileId workspaceId : Id) : Prop :=
  ∃ m ∈ db.memberships.rows, m.userProfileId = userProfileId ∧ m.workspaceId = workspaceId ∧
    m.status = .active ∧ m.deletedAt = none

/-- The actor is the user with this authentication, in a workspace it is an
active member of. -/
structure Database.Acts (db : Database) (supabaseAuthId : String) (actor : ActorContext) :
    Prop where
  user : ∃ u ∈ db.users.rows, u.supabaseAuthId = supabaseAuthId ∧ u.id = actor.user.id
  member : db.ActiveMember actor.user.id actor.workspace.id

theorem Database.id_workspace (db : Database) {m : WorkspaceMembership}
    (hm : m ∈ db.memberships.rows) : (db.workspace hm).id = m.workspaceId := by
  have hfind : db.workspaces.find? (.id m.workspaceId) = some (db.workspace hm) :=
    (Option.some_get _).symm
  have hkey := (Table.find?_eq_some.mp hfind).2
  simpa [Workspace.keys, eq_comm] using hkey

theorem activeUser_eq_ok_iff {db : Database} {supabaseAuthId : String} {u : UserProfile} :
    activeUser db supabaseAuthId = .ok u ↔
      db.users.find? (.supabaseAuthId supabaseAuthId) = some u ∧ u.deletedAt = none ∧
        u.isActive = true := by
  rw [activeUser]
  cases hfind : db.users.find? (.supabaseAuthId supabaseAuthId) with
  | none => simp
  | some user =>
      cases hdeleted : user.deletedAt with
      | some t =>
          simp only [hdeleted, Option.isSome_some, if_true, Option.some.injEq, reduceCtorEq, false_iff]
          rintro ⟨rfl, hnone, _⟩
          rw [hdeleted] at hnone
          cases hnone
      | none =>
          cases hactive : user.isActive with
          | false =>
              simp only [hdeleted, hactive, Option.isSome_none, Bool.not_false, if_true,
                Option.some.injEq, reduceCtorEq, if_false, Bool.false_eq_true, false_iff]
              rintro ⟨rfl, _, htrue⟩
              rw [hactive] at htrue
              cases htrue
          | true =>
              simp only [hdeleted, hactive, Option.isSome_none, Bool.not_true, if_false,
                Bool.false_eq_true, Option.some.injEq, Except.ok.injEq]
              constructor
              · rintro rfl
                exact ⟨rfl, hdeleted, hactive⟩
              · exact And.left

/-- The user of an authentication, as a row. -/
theorem user_of_active {db : Database} {supabaseAuthId : String} {u : UserProfile}
    (h : activeUser db supabaseAuthId = .ok u) :
    u ∈ db.users.rows ∧ u.supabaseAuthId = supabaseAuthId ∧ u.isActive = true ∧
      u.deletedAt = none := by
  obtain ⟨hfind, hdeleted, hactive⟩ := activeUser_eq_ok_iff.mp h
  obtain ⟨hu, hkey⟩ := Table.find?_eq_some.mp hfind
  exact ⟨hu, by simpa [UserProfile.keys, eq_comm] using hkey, hactive, hdeleted⟩

theorem activeMembership_eq_ok {db : Database} {workspaceId userProfileId : Id}
    {m : { m // m ∈ db.memberships.rows }}
    (h : activeMembership db workspaceId userProfileId = .ok m) :
    m.1.workspaceId = workspaceId ∧ m.1.userProfileId = userProfileId ∧ m.1.status = .active ∧
      m.1.deletedAt = none := by
  unfold activeMembership at h
  split at h
  · cases h
  · next membership hfind =>
      split at h
      · cases h
      · next hdeleted =>
          split at h
          · cases h
          · next hactive =>
              cases h
              have hkey := (Table.find?_eq_some.mp hfind).2
              have hids : membership.workspaceId = workspaceId ∧
                  membership.userProfileId = userProfileId := by
                simpa [WorkspaceMembership.keys, eq_comm] using hkey
              exact ⟨hids.1, hids.2, by simpa using hactive, by simpa using hdeleted⟩

theorem targetWorkspaceId_eq_ok {db : Database} {user : UserProfile} {identifier : String}
    {found : Option Workspace} {workspaceId : Id} (hidentifier : identifier ≠ "")
    (h : targetWorkspaceId db user (some identifier) found = .ok workspaceId) :
    ∃ w, found = some w ∧ w.id = workspaceId := by
  have htruthy : truthy (some identifier) = some identifier := by simp [truthy, hidentifier]
  rw [targetWorkspaceId, htruthy] at h
  cases found with
  | none => cases h
  | some w =>
      cases h
      exact ⟨w, rfl, rfl⟩

/-- An actor that is resolved is an active member of its workspace, which is the
one that was found. -/
theorem acts_of_resolve {db : Database} {supabaseAuthId identifier : String}
    {found : Option Workspace} {correlationId : String} {actor : ActorContext}
    (hidentifier : identifier ≠ "")
    (h : resolveActorContext db supabaseAuthId (some identifier) found correlationId = .ok actor) :
    db.Acts supabaseAuthId actor ∧ ∃ w, found = some w ∧ w.id = actor.workspace.id := by
  obtain ⟨user, huser, h⟩ := exists_of_bind_ok h
  obtain ⟨workspaceId, htarget, h⟩ := exists_of_bind_ok h
  obtain ⟨membership, hmembership, h⟩ := exists_of_bind_ok h
  cases h
  obtain ⟨hmem, hauth, -, -⟩ := user_of_active huser
  obtain ⟨hworkspace, hmember, hactive, hdeleted⟩ := activeMembership_eq_ok hmembership
  obtain ⟨w, hfound, hid⟩ := targetWorkspaceId_eq_ok hidentifier htarget
  have hactor : membership.1.workspaceId = (db.workspace membership.2).id :=
    (db.id_workspace membership.2).symm
  refine ⟨⟨⟨user, hmem, hauth, rfl⟩, ?_⟩, w, hfound, ?_⟩
  · exact ⟨membership.1, membership.2, hmember, hactor, hactive, hdeleted⟩
  · exact hid.trans (hworkspace.symm.trans hactor)

end Vynor.Iam
