import Vynor.Realtime.Gateway

/-!
# Sockets in their tenant

A socket is in its tenant when its workspace room is that of the workspace in
its context, in which its user is an active member, and its conversation rooms
are those of conversations of that workspace.

It is, along every run in which the admitted connections name their workspace by
its id, and along no other: a connection that comes in under a slug joins the
room of the slug, which may be the id of another workspace.
-/

namespace Vynor.Realtime

open Lib
open Iam (ActorContext Database Workspace WorkspaceMembership UserProfile)

namespace Gateway

variable (G : Gateway)

/-- The actor is the user of the socket's token, and an active member of its
workspace. -/
def Member (actor : ActorContext) : Prop :=
  ∃ now auth supabaseAuthId, G.handshake = some auth ∧
    G.verify now auth.accessToken = some supabaseAuthId ∧ G.db.Acts supabaseAuthId actor

/-- The socket is in its tenant. -/
structure InTenant (s : Socket) : Prop where
  workspaceRooms : ∀ id, workspaceRoom id ∈ s.rooms → ∃ actor, s.actor = some actor ∧
    workspaceRoomName actor.workspace.id = some (workspaceRoom id) ∧ G.Member actor
  conversationRooms : ∀ id, conversationRoom id ∈ s.rooms → ∃ actor, s.actor = some actor ∧
    ∃ c ∈ G.db.conversations.rows, c.id = id ∧ c.workspaceId = actor.workspace.id

/-- A connection that is admitted names the workspace that was found by its id. -/
def NamedById : Call → Prop
  | .handleConnection now found =>
      ∀ auth supabaseAuthId w actor, G.Admits now found auth supabaseAuthId w actor →
        w.id = auth.workspaceId
  | _ => True

/-- The socket is in its tenant, and its actor is in the workspace the handshake
names by its id. -/
structure Tenant (s : Socket) : Prop where
  inTenant : G.InTenant s
  named : ∀ actor auth, s.actor = some actor → G.handshake = some auth →
    actor.workspace.id = auth.workspaceId

variable {G}

theorem tenant_init (id : String) : G.Tenant { id := id } := by
  constructor
  · exact ⟨fun _ h => (List.not_mem_nil h).elim, fun _ h => (List.not_mem_nil h).elim⟩
  · intro actor auth h
    cases h

/-- A socket that leaves rooms and keeps its actor stays in its tenant. -/
theorem Tenant.shrink {s s' : Socket} (h : G.Tenant s) (hactor : s'.actor = s.actor)
    (hrooms : ∀ r ∈ s'.rooms, r ∈ s.rooms) : G.Tenant s' := by
  constructor
  · constructor
    · intro id hid
      rw [hactor]
      exact h.inTenant.workspaceRooms id (hrooms _ hid)
    · intro id hid
      rw [hactor]
      exact h.inTenant.conversationRooms id (hrooms _ hid)
  · intro actor auth hs' hauth
    exact h.named actor auth (hactor ▸ hs') hauth

theorem tenant_join {s : Socket} (h : G.Tenant s) (payload : Json) (now : Date) (queried : Bool) :
    G.Tenant (G.handleJoinConversation s payload now queried).1 := by
  rcases handleJoinConversation_cases (G := G) s payload now queried with
    heq | ⟨actor, hactor, hactor', c, hc, hworkspace, hrooms⟩
  · rw [heq]
    exact h
  · have hsame : (G.handleJoinConversation s payload now queried).1.actor = s.actor :=
      hactor'.trans hactor.symm
    constructor
    · constructor
      · intro id hid
        rcases (hrooms _).mp hid with hold | hnew
        · rw [hsame]
          exact h.inTenant.workspaceRooms id hold
        · exact absurd hnew workspaceRoom_ne_conversationRoom
      · intro id hid
        rcases (hrooms _).mp hid with hold | hnew
        · rw [hsame]
          exact h.inTenant.conversationRooms id hold
        · exact ⟨actor, hactor', c, hc, (conversationRoom_inj.mp hnew).symm, hworkspace⟩
    · intro actor' auth hs' hauth
      exact h.named actor' auth (hsame ▸ hs') hauth

/-- An admitted connection leaves the socket in its tenant where it names its
workspace by id. -/
theorem tenant_admitted {s : Socket} {now : Date} {found : Option (Option Workspace)}
    {auth : HandshakeAuth} {supabaseAuthId : String} {w : Workspace} {actor : ActorContext}
    (h : G.Tenant s) (hadmits : G.Admits now found auth supabaseAuthId w actor)
    (hnamed : w.id = auth.workspaceId) : G.Tenant (G.handleConnection s now found) := by
  obtain ⟨hacts, hid⟩ := hadmits.acts
  obtain ⟨hactor, hrooms⟩ := hadmits.joins s
  have hworkspace : actor.workspace.id = auth.workspaceId := hid.symm.trans hnamed
  have hmember : G.Member actor :=
    ⟨now, auth, supabaseAuthId, hadmits.handshake, hadmits.verified, hacts⟩
  have hname : workspaceRoomName auth.workspaceId = some (workspaceRoom auth.workspaceId) := by
    rw [workspaceRoomName, if_pos hadmits.roomId]
  constructor
  · constructor
    · intro id hroom
      refine ⟨actor, hactor, ?_, hmember⟩
      rw [hworkspace]
      rcases (hrooms _).mp hroom with hold | hnew
      · -- the workspace of the context before is the same one
        obtain ⟨before, hbefore, hroomName, _⟩ := h.inTenant.workspaceRooms id hold
        rw [← h.named before auth hbefore hadmits.handshake]
        exact hroomName
      · rw [hnew]
        exact hname
    · intro id hroom
      rcases (hrooms _).mp hroom with hold | hnew
      · obtain ⟨before, hbefore, c, hc, hcid, hcworkspace⟩ := h.inTenant.conversationRooms id hold
        refine ⟨actor, hactor, c, hc, hcid, ?_⟩
        rw [hcworkspace, h.named before auth hbefore hadmits.handshake, hworkspace]
      · exact absurd hnew.symm workspaceRoom_ne_conversationRoom
  · intro actor' auth' hs' hauth'
    rw [hactor] at hs'
    rw [hadmits.handshake] at hauth'
    cases hs'
    cases hauth'
    exact hworkspace

theorem tenant_step {s s' : Socket} {a : Call} (h : G.Tenant s)
    (hs : G.machine.step s a = some s') (hnamed : G.NamedById a) : G.Tenant s' := by
  cases a with
  | handleConnection now found =>
      change (if G.finds found then some (G.handleConnection s now found) else none) = some s' at hs
      split at hs
      · cases hs
        rcases admits_or_rejected (G := G) s now found with
          ⟨auth, supabaseAuthId, w, actor, hadmits⟩ | ⟨code, message, hrejected⟩
        · exact tenant_admitted h hadmits (hnamed auth supabaseAuthId w actor hadmits)
        · rw [hrejected]
          exact h.shrink rfl fun r hr => (List.not_mem_nil hr).elim
      · cases hs
  | handleJoinConversation payload now queried =>
      cases hs
      exact tenant_join h payload now queried
  | handleLeaveConversation payload =>
      cases hs
      obtain ⟨hactor, hrooms⟩ := handleLeaveConversation_cases (G := G) s payload
      exact h.shrink hactor hrooms

/-- A connection that leaves the socket in its tenant names its workspace by id. -/
theorem namedById_of_inTenant {s s' : Socket} {a : Call} (hs : G.machine.step s a = some s')
    (h : G.InTenant s') : G.NamedById a := by
  cases a with
  | handleConnection now found =>
      intro auth supabaseAuthId w actor hadmits
      change (if G.finds found then some (G.handleConnection s now found) else none) = some s' at hs
      split at hs
      · cases hs
        obtain ⟨hactor, hrooms⟩ := hadmits.joins s
        obtain ⟨actor', hactor', hname, _⟩ := h.workspaceRooms _ ((hrooms _).mpr (Or.inr rfl))
        rw [hactor] at hactor'
        cases hactor'
        unfold workspaceRoomName at hname
        split at hname
        · exact hadmits.acts.2.trans (workspaceRoom_inj.mp (Option.some.inj hname))
        · cases hname
      · cases hs
  | handleJoinConversation payload now queried => trivial
  | handleLeaveConversation payload => trivial

/-- A socket is in its tenant after every call of a run, if and only if every
connection that is admitted in it names its workspace by id. -/
theorem along_inTenant_iff (id : String) (as : List Call) :
    G.machine.Along (fun _ _ s' => G.InTenant s') { id := id } as ↔
      G.machine.Along (fun _ a _ => G.NamedById a) { id := id } as := by
  refine Machine.along_iff_guarded (I := G.Tenant) (fun s a s' hI hs => ?_)
    (fun s a s' hI hs hnamed => tenant_step hI hs hnamed) (tenant_init id)
  constructor
  · exact namedById_of_inTenant hs
  · intro hnamed
    exact (tenant_step hI hs hnamed).inTenant

/-! ## A slug that is the id of another workspace -/

/-- Ann is a member of the first workspace.  Its slug is the id of the second. -/
def exampleDatabase : Database where
  users := .singleton
    { id := "ann", supabaseAuthId := "sub", email := "ann@example.com", displayName := "Ann" }
  workspaces :=
    ⟨[{ id := "first", name := "First", slug := "second" },
      { id := "second", name := "Second", slug := "other" }], by simp [Workspace.keys]⟩
  memberships := .singleton { id := "member", workspaceId := "first", userProfileId := "ann" }
  conversations := Table.empty
  workspaceOf := by
    intro m hm
    rw [List.mem_singleton.mp hm]
    exact ⟨_, rfl⟩

/-- Ann's handshake for that slug. -/
def exampleGateway : Gateway where
  db := exampleDatabase
  auth := .object [("accessToken", .string "token"), ("workspaceId", .string "second")]
  verify := fun _ token => if token = "token" then some "sub" else none
  isUuid := fun _ => false
  text
    | .string value => value
    | _ => ""
  text_string := fun _ => rfl

/-- The connection, where the lookup returns the first workspace. -/
def exampleConnection : Call :=
  .handleConnection 0 (some (some { id := "first", name := "First", slug := "second" }))

/-- Her socket comes to the room of the second workspace. -/
theorem not_along_inTenant :
    ∃ G : Gateway, ∃ id as, ¬ G.machine.Along (fun _ _ s' => G.InTenant s') { id := id } as := by
  have hstep : (exampleGateway.machine.step { id := "socket" } exampleConnection).map
      (fun s => (s.rooms, s.actor.map fun actor => actor.workspace.id)) =
        some (["workspace:second"], some "first") := by
    decide
  obtain ⟨s, hs, hview⟩ := Option.map_eq_some_iff.mp hstep
  simp only [Prod.mk.injEq] at hview
  refine ⟨exampleGateway, "socket", [exampleConnection], fun hall => ?_⟩
  have hroom : workspaceRoom "second" ∈ s.rooms := by
    rw [hview.1]
    exact List.mem_cons_self
  obtain ⟨actor, hactor, hname, _⟩ := (hall s hs).1.workspaceRooms "second" hroom
  rw [hactor, Option.map_some, Option.some.injEq] at hview
  rw [hview.2] at hname
  exact absurd hname (by decide)

end Gateway

end Vynor.Realtime
