import Vynor.Conversations.Assignment

/-!
# Whose conversations there are

The counts and the last assignments that an agent is chosen by depend on a few
columns of the conversations, which are called the `place` of a conversation
here.  A step adds the place of a new conversation, or it changes the places by
a reassignment or a change of status only (`places_of_step`).
-/

namespace Vynor.Conversations

open Lib (Table)

/-- The columns that say where a conversation is and whose it is. -/
structure Place where
  id : Id
  workspaceId : Id
  providerAccountId : Id
  assignee : Option Id
  status : ConversationStatus
  createdAt : Date
deriving DecidableEq

/-- The place of a conversation. -/
def placeOf (c : Conversation) : Place :=
  ⟨c.id, c.workspaceId, c.providerAccountId, c.assigneeMembershipId, c.status, c.createdAt⟩

/-- The places of all conversations, the oldest row first. -/
def places (conversations : Conversations) : List Place :=
  conversations.rows.map placeOf

/-! ## What is read of them -/

/-- The assignments of a channel, each with the creation of its conversation. -/
def history (channelId : Id) (ps : List Place) : List (Option Id × Date) :=
  (ps.filter fun p => p.providerAccountId = channelId).map fun p => (p.assignee, p.createdAt)

namespace Assignment

/-- Whether a place counts for an agent. -/
def openPlace (workspaceId membershipId : Id) (p : Place) : Bool :=
  p.workspaceId = workspaceId && p.assignee = some membershipId && p.status ∈ OPEN_STATUSES

theorem openCounts_eq (conversations : Conversations) (workspaceId membershipId : Id) :
    openCounts conversations workspaceId membershipId =
      (places conversations).countP (openPlace workspaceId membershipId) := by
  rw [openCounts, Table.count, places, List.countP_map]
  rfl

theorem lastAssigned_eq (conversations : Conversations) (channelId membershipId : Id) :
    lastAssigned conversations channelId membershipId =
      ((((history channelId (places conversations)).filter fun h =>
        h.1 = some membershipId).map Prod.snd).max?).getD 0 := by
  simp only [lastAssigned, history, places, List.filter_map, List.map_map, List.filter_filter]
  congr 3
  refine List.filter_congr fun c _ => ?_
  exact Bool.and_comm _ _

section LastAssigned

variable {conversations : Conversations} {channelId membershipId : Id} {t : Date}

/-- The last assignment of an agent is no earlier than any. -/
theorem le_lastAssigned
    (h : (some membershipId, t) ∈ history channelId (places conversations)) :
    t ≤ lastAssigned conversations channelId membershipId := by
  have hmem : t ∈ ((history channelId (places conversations)).filter fun h =>
      h.1 = some membershipId).map Prod.snd :=
    List.mem_map.mpr ⟨_, List.mem_filter.mpr ⟨h, decide_eq_true rfl⟩, rfl⟩
  rw [lastAssigned_eq]
  cases hmax : (((history channelId (places conversations)).filter fun h =>
      h.1 = some membershipId).map Prod.snd).max? with
  | none => exact absurd (List.max?_eq_none_iff.mp hmax) (List.ne_nil_of_mem hmem)
  | some last => exact (List.max?_eq_some_iff.mp hmax).2 t hmem

/-- An agent whose last assignment is late enough had one then. -/
theorem exists_of_lastAssigned (hpos : 0 < t)
    (h : t ≤ lastAssigned conversations channelId membershipId) :
    ∃ t', (some membershipId, t') ∈ history channelId (places conversations) ∧ t ≤ t' := by
  rw [lastAssigned_eq] at h
  cases hmax : (((history channelId (places conversations)).filter fun h =>
      h.1 = some membershipId).map Prod.snd).max? with
  | none =>
      rw [hmax] at h
      exact absurd hpos (not_lt_of_ge h)
  | some last =>
      rw [hmax] at h
      obtain ⟨⟨assignee, t'⟩, hentry, rfl⟩ :=
        List.mem_map.mp (List.max?_eq_some_iff.mp hmax).1
      obtain ⟨hmem, hassignee⟩ := List.mem_filter.mp hentry
      obtain rfl : assignee = some membershipId := of_decide_eq_true hassignee
      exact ⟨t', hmem, h⟩

end LastAssigned

end Assignment

/-! ## What a step does to them -/

/-- No conversation that was there is reassigned or changes its status. -/
def Steady (before after : Conversations) : Prop :=
  ∀ r ∈ before.rows, ∀ r' ∈ after.rows, r'.id = r.id →
    r'.assigneeMembershipId = r.assigneeMembershipId ∧ r'.status = r.status

/-- An update that changes no more than the assignee and the status of a
place. -/
def Stays (f : Conversation → Conversation) : Prop :=
  ∀ c, placeOf (f c) =
    { placeOf c with assignee := (f c).assigneeMembershipId, status := (f c).status }

/-- Places that steady rows keep through an update. -/
theorem map_place_of_steady {before after : Conversations} (h : Steady before after)
    {rows : List Conversation} {f : Conversation → Conversation} (hf : Stays f)
    (hbefore : rows ⊆ before.rows) (hafter : rows.map f ⊆ after.rows) :
    (rows.map f).map placeOf = rows.map placeOf := by
  rw [List.map_map]
  refine List.map_congr_left fun r hr => ?_
  have hplace := hf r
  have hid : (f r).id = r.id := congrArg Place.id hplace
  obtain ⟨hassignee, hstatus⟩ := h r (hbefore hr) (f r) (hafter (List.mem_map_of_mem hr)) hid
  rw [Function.comp_apply, hplace, hassignee, hstatus]
  rfl

theorem stays_if {g : Conversation → Conversation} (hg : Stays g) (p : Conversation → Bool) :
    Stays fun r => if p r then g r else r := by
  intro c
  simp only
  split
  · exact hg c
  · rfl

/-- An update that stays keeps the places where it is steady. -/
theorem places_updateMany {before after : Conversations} (h : Steady before after)
    {p : Conversation → Bool} {g : Conversation → Conversation} {hk : ∀ r, (g r).keys = r.keys}
    (hafter : after = before.updateMany p g hk) (hg : Stays g) : places after = places before := by
  have hrows : after.rows = before.rows.map fun r => if p r then g r else r := by rw [hafter]; rfl
  rw [places, hrows]
  exact map_place_of_steady h (stays_if hg p) (List.Subset.refl _) (hrows ▸ List.Subset.refl _)

/-- An ingest that creates its conversation adds the place of it. -/
theorem places_created {db db' : Db} {tx : IngestTx} {replyTo : Option Id} {fresh : Conversation}
    {t : Conversations} {result : IngestResult} {c : Conversation}
    (h : Ingested db db' tx none replyTo fresh result c t) (hstatus : fresh.status = .open)
    (hsteady : Steady db.conversations db'.conversations) :
    places db'.conversations = places db.conversations ++ [placeOf fresh] := by
  obtain ⟨htarget, _, hcounted, _⟩ := h
  cases htarget with
  | created hinsert =>
      have hrows := (Table.insert?_eq_some.mp hinsert).2
      have hstays : Stays (counted fresh tx.createdAt (newMessage tx fresh.id replyTo).text) :=
        fun _ => rfl
      have hopen := status_counted_of_open hstatus tx.createdAt
        (newMessage tx fresh.id replyTo).text fresh
      have hafter : db'.conversations.rows = (db.conversations.rows ++ [fresh]).map fun r =>
          if r.id = fresh.id then
            counted fresh tx.createdAt (newMessage tx fresh.id replyTo).text r
          else r := by
        rw [hcounted, ← hrows]
        simp only [Table.updateMany, decide_eq_true_eq]
      have hif : Stays fun r => if r.id = fresh.id then
          counted fresh tx.createdAt (newMessage tx fresh.id replyTo).text r else r := by
        intro r
        simp only
        split
        · exact hstays r
        · rfl
      rw [List.map_append] at hafter
      rw [places, hafter, List.map_append, map_place_of_steady hsteady hif (List.Subset.refl _)
        (hafter ▸ List.subset_append_left _ _)]
      simp only [List.map_cons, List.map_nil, if_true]
      rw [hstays fresh, hopen.1]
      rfl

/-- An ingest whose commit is logged has ended. -/
theorem ended_of_logged {w w' : World} {i : CallId} {conversationId : Id} {createdAt : Date}
    {assignee : Option Id} {tx : IngestTx} {read : Option Conversation} {replyTo : Option Id}
    {e : Entry} (h : step w (.commitIngest i conversationId createdAt assignee) = some w')
    (hlog : w'.log = e :: w.log) (hcall : w.call i = .writing tx read replyTo) :
    (w'.call i).ended = true := by
  simp only [step, stepCommitIngest, hcall] at h
  split at h
  · cases h
    rw [World.unlock_call, World.commit_call, World.setCall_self]
    rfl
  · cases h
    exact absurd hlog.symm (List.cons_ne_self e _)

/-- A step adds the place of a conversation that an ingest creates, or no place. -/
theorem places_of_step {w w' : World} {a : Action} (h : step w a = some w')
    (hsteady : Steady w.db.conversations w'.db.conversations) :
    places w'.db.conversations = places w.db.conversations ∨
      ∃ i conversationId createdAt assignee tx replyTo,
        a = .commitIngest i conversationId createdAt assignee ∧
        w.call i = .writing tx none replyTo ∧ (w'.call i).ended = true ∧
        places w'.db.conversations = places w.db.conversations ++
          [placeOf (newConversation tx.request tx.sender conversationId createdAt assignee)] := by
  rcases step_cases h with ⟨hdb, _⟩ | ⟨e, hlog, hc⟩
  · exact Or.inl (by rw [hdb])
  · cases hc with
    | @ingest i conversationId createdAt assignee tx read replyTo _ result c t hcall hin =>
        cases read with
        | none =>
            exact Or.inr ⟨i, conversationId, createdAt, assignee, tx, replyTo, rfl, hcall,
              ended_of_logged h hlog hcall, places_created hin rfl hsteady⟩
        | some read =>
            have hcounted := hin.counted
            cases hin.target with
            | read _ => exact Or.inl (places_updateMany hsteady hcounted fun _ => rfl)
    | send _ hdb =>
        obtain ⟨_, hconv⟩ := commitSend_eq_some hdb
        rcases hconv with ⟨_, hsame⟩ | ⟨_, _, hupdate⟩
        · exact Or.inl (by rw [hsame])
        · exact Or.inl (places_updateMany hsteady hupdate fun _ => rfl)
    | markRead _ hdb =>
        exact Or.inl (places_updateMany hsteady (commitMarkRead_eq_some hdb).2.2 fun _ => rfl)
    | update _ hdb =>
        exact Or.inl (places_updateMany hsteady (commitUpdate_eq_some hdb).2.2 fun _ => rfl)

/-! ## New conversations -/

/-- The conversation is in the second table and was not in the first. -/
def IsNew (before after : Conversations) (r : Conversation) : Prop :=
  r ∈ after.rows ∧ ∀ r0 ∈ before.rows, r0.id ≠ r.id

theorem not_isNew_of_places_eq {before after : Conversations}
    (h : places after = places before) (r : Conversation) : ¬IsNew before after r := by
  rintro ⟨hmem, hnew⟩
  have hplace : placeOf r ∈ places after := List.mem_map_of_mem hmem
  rw [h] at hplace
  obtain ⟨r0, hr0, heq⟩ := List.mem_map.mp hplace
  exact hnew r0 hr0 (congrArg Place.id heq)

/-- Where a place is added, a new conversation has it, and no other is new. -/
theorem isNew_of_places_append {before after : Conversations} {p : Place}
    (h : places after = places before ++ [p]) :
    (∃ r, IsNew before after r ∧ placeOf r = p) ∧ ∀ r, IsNew before after r → placeOf r = p := by
  have hids : (after.rows.map Conversation.id).Nodup := by
    refine List.pairwise_map.mpr (after.unique.imp fun {r r'} hdisjoint heq => ?_)
    exact hdisjoint (Conversation.mem_keys.mpr rfl) (Conversation.mem_keys.mpr heq.symm)
  have hplaces : after.rows.map Conversation.id = (places after).map Place.id := by
    rw [places, List.map_map]
    rfl
  rw [hplaces, h, List.map_append, List.nodup_append] at hids
  constructor
  · have hp : p ∈ places after := h ▸ List.mem_append_right _ (List.mem_singleton_self p)
    obtain ⟨r, hr, rfl⟩ := List.mem_map.mp hp
    refine ⟨r, ⟨hr, fun r0 hr0 heq => ?_⟩, rfl⟩
    exact hids.2.2 (placeOf r0).id (List.mem_map_of_mem (List.mem_map_of_mem hr0)) (placeOf r).id
      (List.mem_map_of_mem (List.mem_singleton_self _)) heq
  · rintro r ⟨hr, hnew⟩
    have hplace : placeOf r ∈ places after := List.mem_map_of_mem hr
    rw [h] at hplace
    cases List.mem_append.mp hplace with
    | inl hold =>
        obtain ⟨r0, hr0, heq⟩ := List.mem_map.mp hold
        exact absurd (congrArg Place.id heq) (hnew r0 hr0)
    | inr hlast => exact List.mem_singleton.mp hlast

end Vynor.Conversations
