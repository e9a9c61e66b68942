import Vynor.Conversations.Channels
import Vynor.Conversations.Chats
import Vynor.Conversations.Requests

/-!
# References stay on their channel

A message names its conversation and the message it quotes, a conversation its
contact identity, and an identity its contact.  The foreign keys only say that
these rows are there.  In every run they also agree: all of them are on one
channel and in its workspace, and what an agent quotes is in the conversation of
the answer (`intact_of_run`).  A transaction may have read the rows it refers to
long before it writes.
-/

namespace Vynor.Conversations

open Lib (Table Machine)

/-- The message that is quoted, where there is one, is there and has a property. -/
def Quoted (db : Db) (p : Message → Prop) (replyTo : Option Id) : Prop :=
  ∀ id, truthy replyTo = some id → ∃ m, db.messages.find? (.id id) = some m ∧ p m

/-- A message agrees with the rows it refers to. -/
structure Placed (workspaceOf : Id → Id) (db : Db) (m : Message) : Prop where
  workspace : m.workspaceId = workspaceOf m.providerAccountId
  channel : IsOn db m.conversationId m.providerAccountId
  /-- What it quotes is on its channel. -/
  quoted : Quoted db (fun m' => m'.providerAccountId = m.providerAccountId) m.replyToMessageId
  /-- What an agent quotes is in the conversation of the answer. -/
  answers : m.direction = .outbound →
    Quoted db (fun m' => m'.conversationId = m.conversationId) m.replyToMessageId

/-- The rows that refer to each other agree. -/
structure Intact (workspaceOf : Id → Id) (db : Db) : Prop where
  /-- The contact of an identity is in the workspace of its channel. -/
  identities : ∀ r ∈ db.identities.rows, ∃ c, db.contacts.find? r.contactId = some c ∧
    c.workspaceId = workspaceOf r.providerAccountId
  /-- The identity of a conversation is on its channel, with the same contact. -/
  conversations : ∀ c ∈ db.conversations.rows, c.workspaceId = workspaceOf c.providerAccountId ∧
    ∃ r, db.identities.find? (.id c.contactIdentityId) = some r ∧
      r.providerAccountId = c.providerAccountId ∧ r.contactId = c.contactId
  messages : ∀ m ∈ db.messages.rows, Placed workspaceOf db m

/-- An ingest comes with the row of its channel, whose workspace never changes. -/
def InWorkspace (workspaceOf : Id → Id) (_ : World) (a : Action) (_ : World) : Prop :=
  ∀ i request, a = .ingest i request → request.channel.workspaceId = workspaceOf request.channel.id

/-! ## The invariant -/

/-- The identity and the contact that a transaction writes for are there. -/
def HasSender (db : Db) (tx : IngestTx) : Prop :=
  ∃ r, db.identities.find? tx.request.senderKey = some r ∧ r.id = tx.sender.identityId ∧
    r.contactId = tx.sender.contactId

/-- A sender that a transaction has found is there. -/
def Found (db : Db) (tx : IngestTx) : Prop := tx.sender.existing.isSome = true → HasSender db tx

/-- The conversation that an agent has read. -/
def Call.conversation? : Call → Option Conversation
  | .sending d => some d.conversation
  | .updating ch => some ch.conversation
  | _ => none

/-- The rows agree, and so does what the calls have read of them. -/
structure Whole (workspaceOf : Id → Id) (w : World) : Prop where
  db : Intact workspaceOf w.db
  onChannel : OnChannel w
  requests : ∀ i request, (w.call i).request? = some request →
    request.channel.workspaceId = workspaceOf request.channel.id
  senders : ∀ i tx, (w.call i).tx? = some tx → Found w.db tx
  targets : ∀ i tx read replyTo, w.call i = .writing tx read replyTo →
    Quoted w.db (fun m => m.providerAccountId = tx.request.channel.id) replyTo
  read : ∀ i c, (w.call i).conversation? = some c → c.workspaceId = workspaceOf c.providerAccountId
  drafts : ∀ i d, w.call i = .sending d →
    Quoted w.db (fun m => m.conversationId = d.conversation.id) d.request.replyToMessageId

section Step

variable {workspaceOf : Id → Id} {w w' : World} {a : Action}

/-! ## What stays -/

/-- What no step changes of a conversation besides its thread. -/
theorem owner_of_change {c c' : Conversation} (h : c' = c ∨ ∃ e, RowChange w a e c c') :
    c'.workspaceId = c.workspaceId ∧ c'.contactId = c.contactId := by
  rcases h with rfl | ⟨e, h⟩
  · exact ⟨rfl, rfl⟩
  · cases h <;> exact ⟨rfl, rfl⟩

theorem Starts.owner {i : CallId} {tx : IngestTx} {c' : Conversation} (h : Starts w a i tx c') :
    c'.workspaceId = tx.request.channel.workspaceId ∧ c'.contactId = tx.sender.contactId := by
  obtain ⟨_, _, _, _, hrow⟩ := h.row
  rw [hrow]
  exact ⟨rfl, rfl⟩

theorem found_kept (h : step w a = some w') {tx : IngestTx} (htx : Found w.db tx) :
    Found w'.db tx := by
  intro hold
  obtain ⟨r, hr, hid, hcontact⟩ := htx hold
  obtain ⟨r', hr', hkeys, hcontact'⟩ := identity_kept h hr
  exact ⟨r', hr', (ContactIdentity.eq_of_keys hkeys).1.trans hid, hcontact'.trans hcontact⟩

theorem quoted_kept (h : step w a = some w') {p : Message → Prop} {replyTo : Option Id}
    (hquoted : Quoted w.db p replyTo) : Quoted w'.db p replyTo := by
  intro id hid
  obtain ⟨m, hm, hp⟩ := hquoted id hid
  exact ⟨m, message_kept h hm, hp⟩

theorem placed_kept (h : step w a = some w') {m : Message} (hm : Placed workspaceOf w.db m) :
    Placed workspaceOf w'.db m where
  workspace := hm.workspace
  channel := isOn_kept h hm.channel
  quoted := quoted_kept h hm.quoted
  answers hout := quoted_kept h (hm.answers hout)

/-! ## Senders -/

/-- The sender of a conversation that is created is there. -/
theorem sender_of_starts (h : step w a = some w') {i : CallId} {tx : IngestTx}
    {c' : Conversation} (hc' : c' ∈ w'.db.conversations.rows) (hstarts : Starts w a i tx c')
    (hfound : Found w.db tx) : HasSender w'.db tx := by
  obtain ⟨replyTo, hcall⟩ := hstarts.call
  obtain ⟨createdAt, assignee, _, rfl, _⟩ := hstarts.row
  rcases sender_of_commitIngest h hcall with hsame | ⟨_, contact, identity, hnew⟩ | ⟨hold, _⟩
  · exact absurd hsame (hstarts.db_ne hc')
  · refine ⟨identity, ?_, hnew.added.identityId, hnew.added.owner⟩
    refine (Table.find?_of_insert? hnew.added.identities _).trans (if_pos ?_)
    exact ContactIdentity.external_mem_keys.mpr ⟨hnew.added.channel, hnew.added.external⟩
  · exact found_kept h hfound hold

/-- What a transaction has just read of its sender. -/
theorem found_findSender {db : Db} (request : IngestRequest) (attempt : Nat) (now : Date)
    (contactId identityId : Id) :
    Found db ⟨request, attempt, now, findSender db request contactId identityId⟩ := by
  intro hold
  simp only [findSender] at hold ⊢
  split at hold
  · cases hold
  · next r hr => exact ⟨r, hr, rfl, rfl⟩

/-! ## Contacts -/

/-- A contact after the writes for a sender was there, or is the new one. -/
theorem contact_of_writeSender {db db' : Db} {request : IngestRequest} {ref : SenderRef}
    {now : Date} (h : writeSender db request ref now = some db') {id : Id} {c' : Contact}
    (hc' : db'.contacts.find? id = some c') :
    (∃ c, db.contacts.find? id = some c ∧ c'.workspaceId = c.workspaceId) ∨
      db.contacts.find? id = none ∧ c'.workspaceId = request.channel.workspaceId := by
  simp only [writeSender] at h
  split at h
  · split at h
    · next contacts identities hcontacts hidentities =>
      cases h
      have hfind := Table.find?_of_insert? hcontacts id
      rw [hc'] at hfind
      split at hfind
      · next hkey =>
        cases hfind
        have hfree := (Table.insert?_eq_some.mp hcontacts).1
        exact Or.inr ⟨Table.free_iff_find?_eq_none.mp hfree id hkey, rfl⟩
      · exact Or.inl ⟨c', hfind.symm, rfl⟩
    · cases h
  · cases h
    left
    rw [Table.find?_updateMany] at hc'
    obtain ⟨c, hc, rfl⟩ := Option.map_eq_some_iff.mp hc'
    refine ⟨c, hc, ?_⟩
    split
    · rfl
    · rfl

/-- Only the commit of an ingest writes contacts. -/
theorem contacts_of_step (h : step w a = some w') : w'.db.contacts = w.db.contacts ∨
    ∃ tx read replyTo db, w.call a.call = .writing tx read replyTo ∧
      writeSender w.db tx.request tx.sender tx.now = some db ∧ w'.db.contacts = db.contacts := by
  rcases step_cases h with ⟨hdb, _⟩ | ⟨e, _, hcommit⟩
  · exact Or.inl (congrArg Db.contacts hdb)
  · generalize hdb : w'.db = db at hcommit
    cases hcommit with
    | @ingest i conversationId createdAt assignee tx read replyTo _ result c t hcall hin =>
        rw [← hdb]
        simp only [step, stepCommitIngest, hcall] at h
        split at h
        · next db₁ result₁ hingest =>
          cases h
          obtain ⟨db₂, hsender, hcontacts, _⟩ := sender_of_ingest hingest
          exact Or.inr ⟨tx, read, replyTo, db₂, hcall, hsender, hcontacts⟩
        · cases h
          exact Or.inl rfl
    | send _ hsend => exact Or.inl (sameSenders_of_commitSend hsend).2
    | markRead _ hmark => exact Or.inl (sameSenders_of_commitMarkRead hmark).2
    | update _ hupdate => exact Or.inl (sameSenders_of_commitUpdate hupdate).2

/-- A contact after a step was there, or is that of the request that commits. -/
theorem contact_of_step (h : step w a = some w') {id : Id} {c' : Contact}
    (hc' : w'.db.contacts.find? id = some c') :
    (∃ c, w.db.contacts.find? id = some c ∧ c'.workspaceId = c.workspaceId) ∨
      w.db.contacts.find? id = none ∧ ∃ tx read replyTo,
        w.call a.call = .writing tx read replyTo ∧
          c'.workspaceId = tx.request.channel.workspaceId := by
  rcases contacts_of_step h with hsame | ⟨tx, read, replyTo, db, hcall, hsender, hcontacts⟩
  · rw [hsame] at hc'
    exact Or.inl ⟨c', hc', rfl⟩
  · rw [hcontacts] at hc'
    exact (contact_of_writeSender hsender hc').imp_right fun hnew =>
      ⟨hnew.1, tx, read, replyTo, hcall, hnew.2⟩

theorem identity_step (hw : Whole workspaceOf w) (h : step w a = some w') {r' : ContactIdentity}
    (hr' : r' ∈ w'.db.identities.rows) : ∃ c, w'.db.contacts.find? r'.contactId = some c ∧
      c.workspaceId = workspaceOf r'.providerAccountId := by
  have hold : ∀ r ∈ w.db.identities.rows, r'.providerAccountId = r.providerAccountId →
      r'.contactId = r.contactId → ∃ c, w'.db.contacts.find? r'.contactId = some c ∧
        c.workspaceId = workspaceOf r'.providerAccountId := by
    intro r hr hchannel hcontact
    obtain ⟨c, hc, hworkspace⟩ := hw.db.identities r hr
    obtain ⟨c', hc'⟩ := contact_kept h hc
    rw [hcontact, hchannel]
    refine ⟨c', hc', ?_⟩
    rcases contact_of_step h hc' with ⟨c₀, hc₀, hsame⟩ | ⟨hnone, _⟩
    · rw [hc] at hc₀
      cases hc₀
      exact hsame.trans hworkspace
    · rw [hc] at hnone
      cases hnone
  rcases senders_of_step h with
    ⟨hidentities, _⟩ | ⟨i, tx, contact, identity, hi, hnew, hrows, hadded⟩
  · obtain ⟨r, hr, hkeys, hcontact⟩ := hidentities r' hr'
    exact hold r hr (ContactIdentity.eq_of_keys hkeys).2.1 hcontact
  · rw [hrows, List.mem_append] at hr'
    rcases hr' with hr' | hr'
    · exact hold r' hr' rfl rfl
    · rw [List.mem_singleton.mp hr', hnew.added.owner, ← hnew.added.contactId, hnew.added.channel]
      have hfind : w'.db.contacts.find? contact.id = some contact :=
        Contact.find?_of_mem (hadded ▸ List.mem_append_right _ (List.mem_singleton_self _))
      refine ⟨contact, hfind, ?_⟩
      rcases contact_of_step h hfind with ⟨c₀, hc₀, _⟩ | ⟨_, tx', read, replyTo, hcall, hworkspace⟩
      · rw [hnew.contact_free] at hc₀
        cases hc₀
      · obtain ⟨read', replyTo', hcall'⟩ := hnew.call
        rw [hi, hcall'] at hcall
        cases hcall
        rw [hworkspace]
        exact hw.requests i tx.request (by rw [hcall']; rfl)

/-! ## Conversations -/

theorem conversation_step (hw : Whole workspaceOf w) (h : step w a = some w') {c' : Conversation}
    (hc' : c' ∈ w'.db.conversations.rows) : c'.workspaceId = workspaceOf c'.providerAccountId ∧
      ∃ r, w'.db.identities.find? (.id c'.contactIdentityId) = some r ∧
        r.providerAccountId = c'.providerAccountId ∧ r.contactId = c'.contactId := by
  rcases conversation_of_step h hc' with ⟨c, hc, hchange⟩ | ⟨i, tx, hstarts⟩
  · obtain ⟨hworkspace, r, hr, hchannel, hcontact⟩ := hw.db.conversations c hc
    have hsame := sameThread_of_change hchange
    obtain ⟨hworkspace', hcontact'⟩ := owner_of_change hchange
    rw [hworkspace', hcontact', hsame.channel, hsame.identity]
    obtain ⟨r', hr', hkeys, hkept⟩ := identity_kept h hr
    exact ⟨hworkspace, r', hr', (ContactIdentity.eq_of_keys hkeys).2.1.trans hchannel,
      hkept.trans hcontact⟩
  · have hrequest := hw.requests i tx.request (by
      obtain ⟨replyTo, hcall⟩ := hstarts.call
      rw [hcall]
      rfl)
    obtain ⟨hworkspace, hcontact⟩ := hstarts.owner
    rw [hworkspace, hstarts.channel, hstarts.identity, hcontact]
    refine ⟨hrequest, ?_⟩
    obtain ⟨r, hr, hid, howner⟩ := sender_of_starts h hc' hstarts (hw.senders i tx hstarts.tx?)
    have hfind := ContactIdentity.find?_of_mem (Table.find?_eq_some.mp hr).1
    have hchannel := (ContactIdentity.external_mem_keys.mp (Table.find?_eq_some.mp hr).2).1
    exact ⟨r, hid ▸ hfind, hchannel, howner⟩

/-! ## Messages -/

/-- What is in the conversation of a draft is on its channel. -/
theorem channel_of_draft (hw : Whole workspaceOf w) {i : CallId} {d : Draft}
    (hcall : w.call i = .sending d) :
    Quoted w.db (fun m => m.providerAccountId = d.conversation.providerAccountId)
      d.request.replyToMessageId := by
  intro id hid
  obtain ⟨m, hm, hsame⟩ := hw.drafts i d hcall id hid
  obtain ⟨c, hc, hchannel⟩ := (hw.db.messages m (Table.find?_eq_some.mp hm).1).channel
  obtain ⟨c', hc', hdraft⟩ := hw.onChannel.calls i d.conversation.id
    d.conversation.providerAccountId (by rw [hcall]; rfl)
  rw [hsame, hc'] at hc
  cases hc
  exact ⟨m, hm, hchannel.symm.trans hdraft⟩

theorem message_step (hw : Whole workspaceOf w) (h : step w a = some w') {m : Message}
    (hm : m ∈ w'.db.messages.rows) : Placed workspaceOf w'.db m := by
  have hchannel := messages_step hw.onChannel h hm
  have hold : m ∈ w.db.messages.rows → Placed workspaceOf w'.db m :=
    fun hm => placed_kept h (hw.db.messages m hm)
  rcases step_cases h with ⟨hdb, _⟩ | ⟨e, _, hcommit⟩
  · rw [hdb] at hm
    exact hold hm
  · generalize hdb : w'.db = db at hcommit
    rw [hdb] at hm
    cases hcommit with
    | @ingest i conversationId createdAt assignee tx read replyTo _ result c t hcall hin =>
        rw [(Table.insert?_eq_some.mp hin.inserted).2, List.mem_append] at hm
        rcases hm with hm | hnew
        · exact hdb ▸ hold hm
        · cases List.mem_singleton.mp hnew
          rw [← hdb]
          have hworkspace := hw.requests i tx.request (by rw [hcall]; rfl)
          have hquoted := hw.targets i tx read replyTo hcall
          refine ⟨hworkspace, hchannel, quoted_kept h hquoted, ?_⟩
          intro hout
          cases hout
    | @send i createdAt d _ hcall hsend =>
        rw [(Table.insert?_eq_some.mp (commitSend_eq_some hsend).1).2, List.mem_append] at hm
        rcases hm with hm | hnew
        · exact hdb ▸ hold hm
        · cases List.mem_singleton.mp hnew
          rw [← hdb]
          have hworkspace := hw.read i d.conversation (by rw [hcall]; rfl)
          exact ⟨hworkspace, hchannel, quoted_kept h (channel_of_draft hw hcall),
            fun _ => quoted_kept h (hw.drafts i d hcall)⟩
    | @markRead i id _ hcall hmark =>
        rw [(commitMarkRead_eq_some hmark).2.1] at hm
        exact hdb ▸ hold hm
    | @update i ids createdAt ch _ hcall hupdate =>
        rw [rows_of_insertAll (commitUpdate_eq_some hupdate).2.1, List.mem_append] at hm
        rcases hm with hm | hnew
        · exact hdb ▸ hold hm
        · -- The entries of the timeline quote nothing.
          obtain ⟨entry, _, rfl⟩ := List.mem_map.mp hnew
          rw [← hdb]
          have hworkspace := hw.read i ch.conversation (by rw [hcall]; rfl)
          have hnone : ∀ p, Quoted w'.db p none := by
            intro p id hid
            cases hid
          exact ⟨hworkspace, hchannel, hnone _, fun _ => hnone _⟩

/-! ## What a call has read -/

theorem found_step (hw : Whole workspaceOf w) (h : step w a = some w') {i : CallId} {tx : IngestTx}
    (htx : (w'.call i).tx? = some tx) : Found w'.db tx := by
  refine found_kept h ?_
  by_cases hi : i = a.call
  · subst hi
    rcases tx?_of_moved (step_moved h) htx with hbefore | ⟨_, _, _, _, _, _, _, rfl⟩
    · exact hw.senders _ tx hbefore
    · exact found_findSender _ _ _ _ _
  · rw [step_call_other h hi] at htx
    exact hw.senders i tx htx

/-- The reply target that an ingest finds is on its channel. -/
theorem quoted_replyTarget {db : Db} (tx : IngestTx) :
    Quoted db (fun m => m.providerAccountId = tx.request.channel.id) (replyTarget db tx) := by
  intro id hid
  obtain ⟨target, _, hfound⟩ := Option.bind_eq_some_iff.mp (truthy_eq_some.mp hid).1
  obtain ⟨m, hm, rfl⟩ := Option.map_eq_some_iff.mp hfound
  obtain ⟨hmem, hkey⟩ := Table.find?_eq_some.mp hm
  exact ⟨m, Message.find?_of_mem hmem, (Message.provider_mem_keys.mp hkey).1⟩

theorem target_step (hw : Whole workspaceOf w) (h : step w a = some w') {i : CallId} {tx : IngestTx}
    {read : Option Conversation} {replyTo : Option Id}
    (hi : w'.call i = .writing tx read replyTo) :
    Quoted w'.db (fun m => m.providerAccountId = tx.request.channel.id) replyTo := by
  refine quoted_kept h ?_
  by_cases hia : i = a.call
  · subst hia
    have hmoved := step_moved h
    rw [hi] at hmoved
    cases hmoved with
    | readReplyTarget => exact quoted_replyTarget tx
  · rw [step_call_other h hia] at hi
    exact hw.targets i tx read replyTo hi

/-- A conversation that an agent has read is in the workspace of its channel. -/
theorem workspace_of_findConversation (hw : Whole workspaceOf w) {actor : Actor} {id : Id}
    {c : Conversation} (h : findConversation w.db actor id = some c) :
    c.workspaceId = workspaceOf c.providerAccountId :=
  (hw.db.conversations c (Table.find?_eq_some.mp (Option.filter_eq_some_iff.mp h).1).1).1

theorem workspace_step (hw : Whole workspaceOf w) (h : step w a = some w') {i : CallId}
    {c : Conversation} (hc : (w'.call i).conversation? = some c) :
    c.workspaceId = workspaceOf c.providerAccountId := by
  by_cases hi : i = a.call
  · subst hi
    have hmoved := step_moved h
    generalize hcall : w'.call a.call = call at hc hmoved
    cases hmoved with
    | plansSend _ hfound =>
        cases hc
        exact workspace_of_findConversation hw hfound
    | plansUpdate =>
        cases hc
        exact workspace_of_findConversation hw (findConversation_of_update h hcall)
    | _ => cases hc
  · rw [step_call_other h hi] at hc
    exact hw.read i c hc

theorem quoted_of_canSend {db : Db} {channel : ProviderAccount} {conversationId : Id}
    {request : SendMessageRequest} (h : canSend db channel conversationId request = true) :
    Quoted db (fun m => m.conversationId = conversationId) request.replyToMessageId := by
  intro id hid
  simp only [canSend, hid, Bool.and_eq_true] at h
  have hquote := h.2
  split at hquote
  · cases hquote
  · next m hm => exact ⟨m, hm, of_decide_eq_true hquote⟩

/-- A send that has begun has checked what it quotes. -/
theorem quoted_of_send {i : CallId} {actor : Actor} {channel : ProviderAccount}
    {conversationId id : Id} {request : SendMessageRequest} {now : Date} {d : Draft}
    (h : step w (.send i actor channel conversationId request id now) = some w')
    (hcall : w'.call i = .sending d) :
    Quoted w.db (fun m => m.conversationId = d.conversation.id) d.request.replyToMessageId := by
  simp only [step] at h
  split at h
  · split at h
    · cases h
      rw [World.setCall_self] at hcall
      cases hcall
    · next c hc =>
      split at h
      · cases h
        rw [World.setCall_self] at hcall
        split at hcall
        · next hcan =>
          cases hcall
          exact quoted_of_canSend hcan
        · cases hcall
      · cases h
  · cases h

theorem draft_step (hw : Whole workspaceOf w) (h : step w a = some w') {i : CallId} {d : Draft}
    (hd : w'.call i = .sending d) :
    Quoted w'.db (fun m => m.conversationId = d.conversation.id) d.request.replyToMessageId := by
  refine quoted_kept h ?_
  by_cases hi : i = a.call
  · subst hi
    have hmoved := step_moved h
    rw [hd] at hmoved
    cases hmoved with
    | plansSend => exact quoted_of_send h hd
  · rw [step_call_other h hi] at hd
    exact hw.drafts i d hd

theorem whole_step (hw : Whole workspaceOf w) (h : step w a = some w')
    (hrequest : InWorkspace workspaceOf w a w') : Whole workspaceOf w' where
  db := {
    identities := fun _ hr => identity_step hw h hr
    conversations := fun _ hc => conversation_step hw h hc
    messages := fun _ hm => message_step hw h hm }
  onChannel := onChannel_step hw.onChannel h
  requests i request hi := by
    rcases request?_of_step h hi with hold | ⟨rfl, _⟩
    · exact hw.requests i request hold
    · exact hrequest i request rfl
  senders _ _ htx := found_step hw h htx
  targets _ _ _ _ hi := target_step hw h hi
  read _ _ hc := workspace_step hw h hc
  drafts _ _ hd := draft_step hw h hd

end Step

theorem whole_of_idle {workspaceOf : Id → Id} {w : World} (hw : w.Idle)
    (hdb : Intact workspaceOf w.db) : Whole workspaceOf w where
  db := hdb
  onChannel := {
    messages := fun m hm => (hdb.messages m hm).channel
    calls := by
      intro i conversationId channelId hi
      rw [hw i] at hi
      cases hi }
  requests i request hi := by
    rw [hw i] at hi
    cases hi
  senders i tx hi := by
    rw [hw i] at hi
    cases hi
  targets i tx read replyTo hi := by
    rw [hw i] at hi
    cases hi
  read i c hi := by
    rw [hw i] at hi
    cases hi
  drafts i d hi := by
    rw [hw i] at hi
    cases hi

/-- In every run the rows that refer to each other agree on their channel and its
workspace, and what an agent quotes is in the same conversation. -/
theorem intact_of_run {workspaceOf : Id → Id} {w w' : World} {as : List Action} (hidle : w.Idle)
    (hdb : Intact workspaceOf w.db) (has : machine.Along (InWorkspace workspaceOf) w as)
    (h : machine.run w as = some w') : Intact workspaceOf w'.db := by
  have hw : Whole workspaceOf w' :=
    Machine.invariant_along (M := machine) (P := InWorkspace workspaceOf) (I := Whole workspaceOf)
      (fun _ _ _ hI hs hrequest => whole_step hI hs hrequest) (whole_of_idle hidle hdb) has h
  exact hw.db

theorem intact_init (workspaceOf : Id → Id) : Intact workspaceOf World.init.db where
  identities _ h := nomatch h
  conversations _ h := nomatch h
  messages _ h := nomatch h

/-- A visitor writes, and an agent answers with a quote. -/
def quotedRun : List Action :=
  exampleIngest 0 (exampleRequest "e1" "p1" 1) "c" 2 [] ++
    [.send 1 ⟨"workspace", "member", "Ann", true, true⟩ exampleChannel "c"
        { text := "Hi", replyToMessageId := some "e1" } "m" 3,
      .commitSend 1 3]

theorem along_inWorkspace_quotedRun :
    machine.Along (InWorkspace fun _ => exampleChannel.workspaceId) World.init quotedRun := by
  refine Machine.along_of_forall ?_ _
  rintro a ha _ _ _ i request rfl
  simp only [quotedRun, exampleIngest, List.cons_append, List.nil_append, List.mem_cons,
    List.not_mem_nil, Action.ingest.injEq, reduceCtorEq, or_false] at ha
  obtain ⟨rfl, rfl⟩ := ha
  rfl

/-- The theorem at that run, which stores the answer with its quote. -/
theorem intact_quotedRun :
    ∃ w, machine.run World.init quotedRun = some w ∧
      Intact (fun _ => exampleChannel.workspaceId) w.db ∧
      w.db.messages.rows.map (fun m => (m.id, m.conversationId, m.replyToMessageId)) =
        [("e1", "c", none), ("m", "c", some "e1")] := by
  have hview : (machine.run World.init quotedRun).map (fun w =>
      w.db.messages.rows.map fun m => (m.id, m.conversationId, m.replyToMessageId)) =
        some [("e1", "c", none), ("m", "c", some "e1")] := by
    decide
  obtain ⟨w, hw, hrows⟩ := Option.map_eq_some_iff.mp hview
  exact ⟨w, hw, intact_of_run (fun _ => rfl) (intact_init _) along_inWorkspace_quotedRun hw, hrows⟩

end Vynor.Conversations
