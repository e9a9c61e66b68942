import Vynor.Conversations.Locks
import Vynor.Conversations.Senders

/-!
# One open chat for a sender

The messages here have no thread, so each goes to the open conversation of its
sender.  What a transaction has read of its sender and of the sender's open
conversations stays true until it commits: other senders write other rows, and
the lock keeps every other transaction of this sender out.
-/

namespace Vynor.Conversations

open Lib (Table Machine)

/-- The actions of ingests whose messages have no thread. -/
def Action.Chat : Action → Prop
  | .ingest _ request => truthy request.message.threadId = none
  | .lock _ => True
  | .readSender _ _ _ _ => True
  | .readOpen _ _ => True
  | .readReplyTarget _ => True
  | .commitIngest _ _ _ _ => True
  | .lookAgain _ => True
  | .fails _ _ => True
  | _ => False

instance (a : Action) : Decidable a.Chat := by
  unfold Action.Chat
  split <;> infer_instance

/-- The transaction of a call that has read its sender. -/
def Call.tx? : Call → Option IngestTx
  | .resolving tx => some tx
  | .threading tx _ => some tx
  | .targeted tx _ => some tx
  | .resolved tx _ => some tx
  | .writing tx _ _ => some tx
  | _ => none

/-- The conversation that a transaction has read. -/
def Call.chat? : Call → Option (IngestTx × Option Conversation)
  | .resolved tx read => some (tx, read)
  | .writing tx read _ => some (tx, read)
  | _ => none

theorem lock?_of_tx? {c : Call} {tx : IngestTx} (h : c.tx? = some tx) :
    c.lock? = some tx.request.lockKey := by
  cases c <;> cases h <;> rfl

theorem tx?_of_chat? {c : Call} {tx : IngestTx} {read : Option Conversation}
    (h : c.chat? = some (tx, read)) : c.tx? = some tx := by
  cases c <;> cases h <;> rfl

theorem not_ended_of_tx? {c : Call} {tx : IngestTx} (h : c.tx? = some tx) : c.ended = false := by
  cases c with
  | resolving | threading | targeted | resolved | writing => rfl
  | _ => cases h

theorem Starts.tx? {w : World} {a : Action} {i : CallId} {tx : IngestTx} {c' : Conversation}
    (h : Starts w a i tx c') : (w.call i).tx? = some tx := by
  obtain ⟨_, hcall⟩ := h.call
  rw [hcall]
  rfl

/-- The open conversations of the sender of a transaction. -/
def IngestTx.openChat (tx : IngestTx) : Conversation → Bool :=
  openFor tx.request.channel.id tx.sender.identityId

theorem openFor_iff {channelId identityId : Id} {c : Conversation} :
    openFor channelId identityId c = true ↔
      c.providerAccountId = channelId ∧ c.contactIdentityId = identityId ∧ c.status ∈ OPEN_STATUSES := by
  simp [openFor, and_assoc]

/-- The sender as a transaction has read it. -/
def SenderRead (db : Db) (tx : IngestTx) : Prop :=
  match tx.sender.existing with
  | none => db.identities.find? tx.request.senderKey = none
  | some _ => ∃ r, db.identities.find? tx.request.senderKey = some r ∧ r.id = tx.sender.identityId

/-- The open conversation as a transaction has read it.  A sender that is new has
none. -/
def ChatRead (db : Db) (tx : IngestTx) : Option Conversation → Prop
  | some c => ∃ row ∈ db.conversations.rows, row.id = c.id ∧ tx.openChat row = true
  | none => tx.sender.existing.isSome = true → ∀ row ∈ db.conversations.rows, tx.openChat row = false

/-- A message that a call has stored is in a conversation of its sender. -/
def InChat (db : Db) (request : IngestRequest) : Prop :=
  ∃ m r c, db.messages.find? request.key = some m ∧
    db.identities.find? request.senderKey = some r ∧
    db.conversations.find? m.conversationId = some c ∧ c.contactIdentityId = r.id

structure Chatting (w : World) : Prop where
  exclusive : Exclusive w
  references : HasContacts w.db
  identity : ∀ c ∈ w.db.conversations.rows, ∃ r, w.db.identities.find? (.id c.contactIdentityId) = some r
  sender : ∀ i tx, (w.call i).tx? = some tx → SenderRead w.db tx
  chat : ∀ i tx read, (w.call i).chat? = some (tx, read) → ChatRead w.db tx read
  one : ∀ channelId identityId, ∀ a ∈ w.db.conversations.rows, ∀ b ∈ w.db.conversations.rows,
    openFor channelId identityId a = true → openFor channelId identityId b = true → a.id = b.id
  stored : ∀ i request result, w.call i = .ingested request result → result.duplicate = false →
    InChat w.db request

/-! ## Reads -/

/-- A call that is in its transaction after a step has written nothing in it. -/
theorem db_of_tx? {w w' : World} {a : Action} {tx : IngestTx} (h : step w a = some w')
    (htx : (w'.call a.call).tx? = some tx) : w'.db = w.db := by
  rcases resolved_of_write h with hdb | ⟨hended, _⟩
  · exact hdb
  · rw [not_ended_of_tx? htx] at hended
    cases hended

/-- What a transaction has just read of its sender. -/
theorem senderRead_findSender {db : Db} (href : HasContacts db) (request : IngestRequest)
    (attempt : Nat) (now : Date) (contactId identityId : Id) :
    SenderRead db ⟨request, attempt, now, findSender db request contactId identityId⟩ := by
  unfold SenderRead findSender
  cases hfind : db.identities.find? (.external request.channel.id request.message.sender.identifier) with
  | none => exact hfind
  | some r =>
      obtain ⟨c, hc⟩ := href r (Table.find?_eq_some.mp hfind).1
      simp only [hc, Option.map_some]
      exact ⟨r, hfind, rfl⟩

/-- What a transaction has just read of its conversations. -/
theorem chatRead_head? {db : Db} {tx : IngestTx} {found : List Conversation}
    (h : db.conversations.Selects tx.openChat latestFirst 1 found) : ChatRead db tx found.head? := by
  cases found with
  | nil =>
      intro _ row hrow
      by_contra hopen
      have hfull := (h.passedOver row hrow (by simpa using hopen) (List.not_mem_nil)).1
      cases hfull
  | cons c rest =>
      obtain ⟨hc, hopen⟩ := h.selected c List.mem_cons_self
      exact ⟨c, hc, rfl, hopen⟩

/-! ## Other senders -/

/-- The commit of another sender leaves what a transaction has read of its own. -/
theorem senderRead_kept {w w' : World} {a : Action} (hw : Exclusive w) (h : step w a = some w')
    {j : CallId} (hj : j ≠ a.call) {tx : IngestTx} (htx : (w.call j).tx? = some tx)
    (hread : SenderRead w.db tx) : SenderRead w'.db tx := by
  unfold SenderRead at hread ⊢
  cases hold : tx.sender.existing with
  | some pair =>
      rw [hold] at hread
      obtain ⟨r, hr, hid⟩ := hread
      obtain ⟨r', hr', hkeys, _⟩ := identity_kept h hr
      exact ⟨r', hr', (ContactIdentity.eq_of_keys hkeys).1.trans hid⟩
  | none =>
      rw [hold] at hread
      have hstep := senderStep_of_step h
      generalize w'.db = db at hstep
      cases hstep with
      | refreshed hrows =>
          obtain ⟨f, hmap, hf⟩ := hrows.identities
          show db.identities.find? _ = none
          rw [Table.find?_of_map hmap fun r => (hf r).1]
          have hread : w.db.identities.find? tx.request.senderKey = none := hread
          rw [hread]
          rfl
      | @created i _ _ _ tx' contact identity _ hnew =>
          show db.identities.find? _ = none
          rw [Table.find?_of_insert? hnew.added.identities, if_neg]
          · exact hread
          · -- The identity that is new belongs to the sender of the other lock.
            intro hkey
            obtain ⟨hchannel, hexternal⟩ := ContactIdentity.external_mem_keys.mp hkey
            obtain ⟨read, replyTo, hcall⟩ := hnew.call
            have hlock : tx'.request.lockKey = tx.request.lockKey := by
              rw [IngestRequest.lockKey, IngestRequest.lockKey, ← hnew.added.channel,
                ← hnew.added.external, hchannel, hexternal]
            have hlock' : (w.call i).lock? = some tx'.request.lockKey :=
              lock?_of_tx? (by rw [hcall]; rfl)
            exact hj (hw.alone j i _ (lock?_of_tx? htx) (hlock ▸ hlock'))

/-- A commit of an ingest leaves an identity under the key of its sender. -/
theorem identity_of_commit {w w' : World} {i : CallId} {conversationId : Id} {createdAt : Date}
    {assignee : Option Id} {tx : IngestTx} {read : Option Conversation} {replyTo : Option Id}
    (h : step w (.commitIngest i conversationId createdAt assignee) = some w')
    (hcall : w.call i = .writing tx read replyTo) (hdb : w'.db ≠ w.db)
    (hread : SenderRead w.db tx) :
    (∃ r, w'.db.identities.find? tx.request.senderKey = some r ∧ r.id = tx.sender.identityId) ∧
      (tx.sender.existing = none → w.db.identities.find? (.id tx.sender.identityId) = none) := by
  rcases sender_of_commitIngest h hcall with hsame | ⟨_, contact, identity, hnew⟩ | ⟨hold, _⟩
  · exact absurd hsame hdb
  · refine ⟨⟨identity, ?_, hnew.added.identityId⟩, fun _ => ?_⟩
    · refine (Table.find?_of_insert? hnew.added.identities _).trans (if_pos ?_)
      exact ContactIdentity.external_mem_keys.mpr ⟨hnew.added.channel, hnew.added.external⟩
    · exact hnew.free (ContactIdentity.id_mem_keys.mpr hnew.added.identityId)
  · obtain ⟨pair, hpair⟩ := Option.isSome_iff_exists.mp hold
    unfold SenderRead at hread
    rw [hpair] at hread
    obtain ⟨r, hr, hid⟩ := hread
    obtain ⟨r', hr', hkeys, _⟩ := identity_kept h hr
    refine ⟨⟨r', hr', (ContactIdentity.eq_of_keys hkeys).1.trans hid⟩, fun hnone => ?_⟩
    rw [hpair] at hnone
    cases hnone

/-- A commit that creates a conversation leaves its identity under the key of the
sender. -/
theorem identity_of_starts {w w' : World} {a : Action} (h : step w a = some w') {i : CallId}
    {tx : IngestTx} {c' : Conversation} (hc' : c' ∈ w'.db.conversations.rows)
    (hstarts : Starts w a i tx c') (hread : SenderRead w.db tx) :
    (∃ r, w'.db.identities.find? tx.request.senderKey = some r ∧ r.id = c'.contactIdentityId) ∧
      (tx.sender.existing = none → w.db.identities.find? (.id c'.contactIdentityId) = none) := by
  obtain ⟨replyTo, hcall⟩ := hstarts.call
  obtain ⟨createdAt, assignee, _, rfl, _⟩ := hstarts.row
  rw [hstarts.identity]
  exact identity_of_commit h hcall (hstarts.db_ne hc') hread

/-! ## Open conversations -/

/-- A change of an ingest leaves a conversation open, and reopens none that was
read as open. -/
theorem openFor_counted {channelId identityId : Id} {read c : Conversation} {createdAt : Date}
    {text : String} (hc : c.status ∈ OPEN_STATUSES) :
    openFor channelId identityId (counted read createdAt text c) = true ↔
      openFor channelId identityId c = true := by
  have hstatus : (counted read createdAt text c).status ∈ OPEN_STATUSES := by
    by_cases hread : read.status = .open
    · rw [(status_counted_of_open hread createdAt text c).1]
      exact hc
    · rw [(status_counted_of_ne hread createdAt text c).1]
      exact List.mem_cons_self
  rw [openFor_iff, openFor_iff]
  exact and_congr Iff.rfl (and_congr Iff.rfl (iff_of_true hstatus hc))

/-- An ingest changes a conversation that it has read as open, and that still is. -/
theorem openFor_rowChange {w : World} (hw : Chatting w) {a : Action} {e : Entry}
    {c c' : Conversation} (hchat : a.Chat) (hc : c ∈ w.db.conversations.rows)
    (h : RowChange w a e c c') (channelId identityId : Id) :
    openFor channelId identityId c' = true ↔ openFor channelId identityId c = true := by
  cases h with
  | other => exact Iff.rfl
  | @ingest i _ _ _ _ tx replyTo read _ hcall hid =>
      obtain ⟨row, hrow, hrowId, hopen⟩ := hw.chat i tx (some read) (by rw [hcall]; rfl)
      have heq : row = c := Conversation.eq_of_id hrow hc (hrowId.trans hid)
      subst heq
      exact openFor_counted (openFor_iff.mp hopen).2.2
  | note | send | markRead | update => cases hchat

/-- An open conversation stays open. -/
theorem open_kept {w w' : World} (hw : Chatting w) {a : Action} (h : step w a = some w')
    (hchat : a.Chat) {c : Conversation} (hc : c ∈ w.db.conversations.rows) :
    ∃ c' ∈ w'.db.conversations.rows, c'.id = c.id ∧ ∀ channelId identityId,
      openFor channelId identityId c' = true ↔ openFor channelId identityId c = true := by
  obtain ⟨c', hc', hchange⟩ := conversation_kept h (Conversation.find?_of_mem hc)
  refine ⟨c', (Table.find?_eq_some.mp hc').1, Conversation.id_of_find? hc', fun channelId identityId => ?_⟩
  rcases hchange with rfl | ⟨e, hchange⟩
  · exact Iff.rfl
  · exact openFor_rowChange hw hchat hc hchange channelId identityId

/-- A conversation that is open after a step was open, or was just created for its
sender. -/
theorem open_of_step {w w' : World} (hw : Chatting w) {a : Action} (h : step w a = some w')
    (hchat : a.Chat) {c' : Conversation} (hc' : c' ∈ w'.db.conversations.rows)
    {channelId identityId : Id} (hopen : openFor channelId identityId c' = true) :
    (∃ c ∈ w.db.conversations.rows, c.id = c'.id ∧ openFor channelId identityId c = true) ∨
      ∃ i tx, Starts w a i tx c' ∧ tx.request.channel.id = channelId ∧
        tx.sender.identityId = identityId := by
  rcases conversation_of_step h hc' with ⟨c, hc, rfl | ⟨e, hchange⟩⟩ | ⟨i, tx, hstarts⟩
  · exact Or.inl ⟨_, hc, rfl, hopen⟩
  · exact Or.inl ⟨c, hc, hchange.sameThread.id.symm,
      (openFor_rowChange hw hchat hc hchange channelId identityId).mp hopen⟩
  · obtain ⟨hchannel, hidentity, _⟩ := openFor_iff.mp hopen
    exact Or.inr ⟨i, tx, hstarts, hstarts.channel.symm.trans hchannel,
      hstarts.identity.symm.trans hidentity⟩

/-- A conversation that is created is the only open one of its sender. -/
theorem none_open_of_starts {w w' : World} (hw : Chatting w) {a : Action} (h : step w a = some w')
    {i : CallId} {tx : IngestTx} {c' : Conversation} (hc' : c' ∈ w'.db.conversations.rows)
    (hstarts : Starts w a i tx c') {c : Conversation} (hc : c ∈ w.db.conversations.rows) :
    tx.openChat c = false := by
  obtain ⟨replyTo, hcall⟩ := hstarts.call
  have hnone := hw.chat i tx none (by rw [hcall]; rfl)
  cases hold : tx.sender.existing with
  | some pair => exact hnone (by rw [hold]; rfl) c hc
  | none =>
      by_contra hopen
      have hfree := (identity_of_starts h hc' hstarts (hw.sender i tx hstarts.tx?)).2 hold
      obtain ⟨r, hr⟩ := hw.identity c hc
      have hopen : tx.openChat c = true := by simpa using hopen
      rw [(openFor_iff.mp hopen).2.1, ← hstarts.identity, hfree] at hr
      cases hr

/-! ## The step -/

theorem tx?_of_moved {w : World} {a : Action} {c : Call} {tx : IngestTx} (h : Moved w a c)
    (htx : c.tx? = some tx) :
    (w.call a.call).tx? = some tx ∨ ∃ i now contactId identityId request attempt,
      a = .readSender i now contactId identityId ∧
        tx = ⟨request, attempt, now, findSender w.db request contactId identityId⟩ := by
  cases h with
  | readSender hcall =>
      cases htx
      exact Or.inr ⟨_, _, _, _, _, _, rfl, rfl⟩
  | readOpen hcall | readThread hcall | follows hcall | readTarget hcall | noTarget hcall
  | readConversation hcall | readReplyTarget hcall =>
      refine Or.inl ?_
      rw [Action.call, hcall]
      exact htx
  | _ => cases htx

/-- A transaction under way after a step was under way, or has just read its
sender. -/
theorem sender_step {w w' : World} (hw : Chatting w) {a : Action} (h : step w a = some w') {j : CallId}
    {tx : IngestTx} (htx : (w'.call j).tx? = some tx) : SenderRead w'.db tx := by
  by_cases hj : j = a.call
  · subst hj
    rw [db_of_tx? h htx]
    rcases tx?_of_moved (step_moved h) htx with hbefore | ⟨_, _, _, _, _, _, _, rfl⟩
    · exact hw.sender _ tx hbefore
    · exact senderRead_findSender hw.references _ _ _ _ _
  · rw [step_call_other h hj] at htx
    exact senderRead_kept hw.exclusive h hj htx (hw.sender j tx htx)

/-- A commit of another transaction leaves what a transaction has read of its
chat. -/
theorem chatRead_kept {w w' : World} (hw : Chatting w) {a : Action} (h : step w a = some w')
    (hchat : a.Chat) {j : CallId} (hj : j ≠ a.call) {tx : IngestTx} {read : Option Conversation}
    (htx : (w.call j).tx? = some tx) (hread : ChatRead w.db tx read) : ChatRead w'.db tx read := by
  cases read with
  | some c =>
      obtain ⟨row, hrow, hid, hopen⟩ := hread
      obtain ⟨row', hrow', hid', hiff⟩ := open_kept hw h hchat hrow
      exact ⟨row', hrow', hid'.trans hid, (hiff _ _).mpr hopen⟩
  | none =>
      intro hold row' hrow'
      by_contra hopen
      have hopen : tx.openChat row' = true := by simpa using hopen
      rcases open_of_step hw h hchat hrow' hopen with
        ⟨row, hrow, _, hbefore⟩ | ⟨i, tx', hstarts, hchannel, hidentity⟩
      · have hclosed := hread hold row hrow
        rw [show tx.openChat row = true from hbefore] at hclosed
        cases hclosed
      · -- The creating transaction would have the sender of this one, and its lock.
        have htx' := hstarts.tx?
        obtain ⟨⟨r', hr', hid'⟩, _⟩ := identity_of_starts h hrow' hstarts (hw.sender i tx' htx')
        have hmine := senderRead_kept hw.exclusive h hj htx (hw.sender j tx htx)
        obtain ⟨pair, hpair⟩ := Option.isSome_iff_exists.mp hold
        unfold SenderRead at hmine
        rw [hpair] at hmine
        obtain ⟨r, hr, hid⟩ := hmine
        have heq : r' = r := by
          refine ContactIdentity.eq_of_id (Table.find?_eq_some.mp hr').1
            (Table.find?_eq_some.mp hr).1 ?_
          rw [hid', hstarts.identity, hidentity, hid]
        subst heq
        have hkey' := ContactIdentity.external_mem_keys.mp (Table.find?_eq_some.mp hr').2
        have hkey := ContactIdentity.external_mem_keys.mp (Table.find?_eq_some.mp hr).2
        have hlock : tx'.request.lockKey = tx.request.lockKey := by
          rw [IngestRequest.lockKey, IngestRequest.lockKey, ← hkey'.1, ← hkey'.2, hkey.1, hkey.2]
        have hsame := hw.exclusive.alone j i _ (lock?_of_tx? htx) (hlock ▸ lock?_of_tx? htx')
        exact hj (hsame.trans hstarts.action_call.symm)

theorem chat_step {w w' : World} (hw : Chatting w) {a : Action} (h : step w a = some w')
    (hchat : a.Chat) {j : CallId} {tx : IngestTx} {read : Option Conversation}
    (hread : (w'.call j).chat? = some (tx, read)) : ChatRead w'.db tx read := by
  by_cases hj : j = a.call
  · subst hj
    rw [db_of_tx? h (tx?_of_chat? hread)]
    have hmoved := step_moved h
    generalize w'.call a.call = c at hread hmoved
    cases hmoved with
    | readOpen hcall hfound =>
        cases hread
        exact chatRead_head? hfound
    | @readReplyTarget i tx' read' hcall =>
        cases hread
        exact hw.chat i _ _ (by rw [hcall]; rfl)
    | readThread | noTarget | readConversation => cases hchat
    | _ => cases hread
  · rw [step_call_other h hj] at hread
    exact chatRead_kept hw h hchat hj (tx?_of_chat? hread) (hw.chat j tx read hread)

theorem one_step {w w' : World} (hw : Chatting w) {a : Action} (h : step w a = some w')
    (hchat : a.Chat) {channelId identityId : Id} {b c : Conversation}
    (hb : b ∈ w'.db.conversations.rows) (hc : c ∈ w'.db.conversations.rows)
    (hbopen : openFor channelId identityId b = true)
    (hcopen : openFor channelId identityId c = true) : b.id = c.id := by
  have hclosed : ∀ {i : CallId} {tx : IngestTx} {d row : Conversation},
      d ∈ w'.db.conversations.rows → Starts w a i tx d → tx.request.channel.id = channelId →
      tx.sender.identityId = identityId → row ∈ w.db.conversations.rows →
      openFor channelId identityId row ≠ true := by
    rintro i tx d row hd hstarts rfl rfl hrow hopen
    have hnone := none_open_of_starts hw h hd hstarts hrow
    rw [show tx.openChat row = true from hopen] at hnone
    cases hnone
  rcases open_of_step hw h hchat hb hbopen with
    ⟨b₀, hb₀, hbid, hb₀open⟩ | ⟨i, tx, hbstarts, hbch, hbid⟩
  · rcases open_of_step hw h hchat hc hcopen with
      ⟨c₀, hc₀, hcid, hc₀open⟩ | ⟨i, tx, hcstarts, hcch, hcid⟩
    · rw [← hbid, ← hcid]
      exact hw.one channelId identityId b₀ hb₀ c₀ hc₀ hb₀open hc₀open
    · exact absurd hb₀open (hclosed hc hcstarts hcch hcid hb₀)
  · rcases open_of_step hw h hchat hc hcopen with
      ⟨c₀, hc₀, _, hc₀open⟩ | ⟨j, tx', hcstarts, _, _⟩
    · exact absurd hc₀open (hclosed hb hbstarts hbch hbid hc₀)
    · exact id_of_starts hbstarts hcstarts

/-- A message that is stored in a step goes to a conversation of its sender. -/
theorem inChat_of_inserts {w w' : World} (hw : Chatting w) {a : Action} (h : step w a = some w')
    {i : CallId} {request : IngestRequest} {result : IngestResult}
    (hins : Inserts w w' a i request result) : InChat w'.db request := by
  obtain ⟨m, hm, _, hmc⟩ := hins.stored
  obtain ⟨tx, read, replyTo, conversationId, createdAt, assignee, rfl, hcall, rfl, hdb, c', hc', hid,
    hwhich⟩ := commit_of_inserts h hins
  have htx : (w.call i).tx? = some tx := by
    rw [hcall]
    rfl
  obtain ⟨⟨r, hr, hrid⟩, _⟩ := identity_of_commit h hcall hdb (hw.sender i tx htx)
  refine ⟨m, r, c', hm, hr, ?_, ?_⟩
  · rw [hmc, ← hid]
    exact Conversation.find?_of_mem hc'
  · rw [hrid]
    rcases hwhich with ⟨c, rfl, hcid⟩ | hstarts
    · obtain ⟨row, hrow, hrowId, hopen⟩ := hw.chat i tx (some c) (by rw [hcall]; rfl)
      obtain ⟨row', hrow', hchange⟩ := conversation_kept h (Conversation.find?_of_mem hrow)
      rw [hrowId, hcid, Conversation.find?_of_mem hc'] at hrow'
      cases hrow'
      rw [(sameThread_of_change hchange).identity]
      exact (openFor_iff.mp hopen).2.1
    · exact hstarts.identity

theorem inChat_kept {w w' : World} {a : Action} (h : step w a = some w') {request : IngestRequest}
    (hin : InChat w.db request) : InChat w'.db request := by
  obtain ⟨m, r, c, hm, hr, hc, hidentity⟩ := hin
  obtain ⟨r', hr', hkeys, _⟩ := identity_kept h hr
  obtain ⟨c', hc', hchange⟩ := conversation_kept h hc
  refine ⟨m, r', c', message_kept h hm, hr', hc', ?_⟩
  rw [(ContactIdentity.eq_of_keys hkeys).1, ← hidentity]
  exact (sameThread_of_change hchange).identity

theorem chatting_step {w w' : World} (hw : Chatting w) {a : Action} (h : step w a = some w')
    (hchat : a.Chat) : Chatting w' where
  exclusive := exclusive_step hw.exclusive h
  references := (paired_step (paired_refl hw.references) h).references
  identity c' hc' := by
    rcases conversation_of_step h hc' with ⟨c, hc, hchange⟩ | ⟨i, tx, hstarts⟩
    · have hsame := (sameThread_of_change hchange).identity
      obtain ⟨r, hr⟩ := hw.identity c hc
      obtain ⟨r', hr', _⟩ := identity_kept h hr
      exact ⟨r', hsame ▸ hr'⟩
    · obtain ⟨⟨r, hr, hid⟩, _⟩ := identity_of_starts h hc' hstarts (hw.sender i tx hstarts.tx?)
      refine ⟨r, ?_⟩
      rw [← hid]
      exact ContactIdentity.find?_of_mem (Table.find?_eq_some.mp hr).1
  sender i tx htx := sender_step hw h htx
  chat i tx read hread := chat_step hw h hchat hread
  one channelId identityId a ha b hb haopen hbopen := one_step hw h hchat ha hb haopen hbopen
  stored i request result hi hfresh := by
    rcases step_ingested h hi with hold | ⟨_, hfound⟩ | hins
    · exact inChat_kept h (hw.stored i request result hold hfresh)
    · obtain ⟨_, _, _, _, hdup⟩ := findDuplicate_eq_some hfound
      rw [hdup] at hfresh
      cases hfresh
    · exact inChat_of_inserts hw h hins

/-! ## The run -/

/-- No call is under way, every row has the rows it refers to, and no sender has
two open conversations. -/
structure ChatStart (w : World) : Prop where
  idle : w.Idle
  contact : HasContacts w.db
  identity : ∀ c ∈ w.db.conversations.rows, ∃ r, w.db.identities.find? (.id c.contactIdentityId) = some r
  one : ∀ channelId identityId, w.db.conversations.count (openFor channelId identityId) ≤ 1

/-- What holds of every sender after a run that started in `w₀`. -/
structure OneChat (w₀ w : World) : Prop where
  /-- A sender has at most one identity. -/
  identity : ∀ channelId sender,
    w.db.identities.rows.countP (fun r => .external channelId sender ∈ r.keys) ≤ 1
  /-- An identity that the run created has exactly one contact that it created. -/
  contact : ∀ r ∈ w.db.identities.rows, w₀.db.identities.find? (.id r.id) = none →
    ∃! c, c ∈ w.db.contacts.rows ∧ c.id = r.contactId ∧ w₀.db.contacts.find? c.id = none
  /-- A contact that the run created belongs to exactly one identity. -/
  owner : ∀ c ∈ w.db.contacts.rows, w₀.db.contacts.find? c.id = none →
    ∃! r, r ∈ w.db.identities.rows ∧ r.contactId = c.id
  /-- A sender has at most one open conversation. -/
  chat : ∀ channelId identityId, w.db.conversations.count (openFor channelId identityId) ≤ 1
  /-- A stored message is in a conversation of its sender. -/
  stored : ∀ i request result, w.call i = .ingested request result → result.duplicate = false →
    InChat w.db request

theorem chatting_of_start {w : World} (h : ChatStart w) : Chatting w where
  exclusive := exclusive_of_idle h.idle
  references := h.contact
  identity := h.identity
  sender i tx htx := by
    rw [h.idle i] at htx
    cases htx
  chat i tx read hread := by
    rw [h.idle i] at hread
    cases hread
  one channelId identityId := Conversation.count_le_one_iff.mp (h.one channelId identityId)
  stored i request result hi := by
    rw [h.idle i] at hi
    cases hi

/-- In every state that any interleaving of ingests without a thread reaches, each
sender has one identity with one contact and at most one open conversation, and
its messages are in conversations of that identity. -/
theorem oneChat_of_run {w₀ w : World} {as : List Action} (hstart : ChatStart w₀)
    (has : ∀ a ∈ as, a.Chat) (h : machine.run w₀ as = some w) : OneChat w₀ w := by
  have halong := Machine.along_of_forall (M := machine) (P := fun _ a _ => Action.Chat a)
    (fun a ha _ _ _ => has a ha) w₀
  have hw : Chatting w := Machine.invariant_along (M := machine) (P := fun _ a _ => Action.Chat a)
    (I := Chatting) (fun _ _ _ hI hs hchat => chatting_step hI hs hchat) (chatting_of_start hstart)
    halong h
  have hpaired : Paired w₀.db w.db := Machine.invariant (M := machine)
    (I := fun w => Paired w₀.db w.db) (fun _ _ _ hI hs => paired_step hI hs)
    (paired_refl hstart.contact) h
  refine ⟨fun _ _ => Table.countP_key_le_one _ _, ?_, ?_, ?_, hw.stored⟩
  · intro r hr hnew
    obtain ⟨c, hc, hid, hfree⟩ := hpaired.contact r hr hnew
    refine ⟨c, ⟨hc, hid, hfree⟩, ?_⟩
    rintro c' ⟨hc', hid', _⟩
    exact Contact.eq_of_id hc' hc (hid'.trans hid.symm)
  · intro c hc hnew
    obtain ⟨r, hr, hrc, honly⟩ := hpaired.identity c hc hnew
    refine ⟨r, ⟨hr, hrc⟩, ?_⟩
    rintro r' ⟨hr', hrc'⟩
    exact ContactIdentity.eq_of_id hr' hr (honly r' hr' hrc')
  · intro channelId identityId
    exact Conversation.count_le_one_iff.mpr (hw.one channelId identityId)

theorem chatStart_init : ChatStart World.init where
  idle _ := rfl
  contact _ h := nomatch h
  identity _ h := nomatch h
  one _ _ := Nat.zero_le _

/-- Two first messages of one visitor arrive together. -/
def burstRun : List Action :=
  [.ingest 1 (exampleRequest "e2" "p2" 2)] ++
    exampleIngest 0 (exampleRequest "e1" "p1" 1) "c" 2 [] ++
    (exampleIngest 1 (exampleRequest "e2" "p2" 2) "c2" 3 [exampleConversation]).tail

/-- The theorem at that run, which creates one conversation. -/
theorem oneChat_burstRun :
    ∃ w, machine.run World.init burstRun = some w ∧ OneChat World.init w ∧
      w.db.conversations.rows.map Conversation.id = ["c"] ∧ w.db.messages.rows.length = 2 := by
  have hview : (machine.run World.init burstRun).map (fun w =>
      (w.db.conversations.rows.map Conversation.id, w.db.messages.rows.length)) = some (["c"], 2) := by
    decide
  obtain ⟨w, hw, hrows⟩ := Option.map_eq_some_iff.mp hview
  rw [Prod.mk.injEq] at hrows
  exact ⟨w, hw, oneChat_of_run chatStart_init (by decide) hw, hrows⟩

end Vynor.Conversations
