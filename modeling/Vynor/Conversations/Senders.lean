import Vynor.Conversations.ExactlyOnce

/-!
# The rows of a sender

`SenderStep` says what a step does to contacts and identities.  A commit of an
ingest creates one contact together with one identity, or updates rows that keep
their keys.  Every other step leaves both tables alone.
-/

namespace Vynor.Conversations

open Lib (Table Machine)

/-- The key of a request's sender among the identities. -/
def IngestRequest.senderKey (request : IngestRequest) : IdentityKey :=
  .external request.channel.id request.message.sender.identifier

@[simp] theorem ContactIdentity.id_mem_keys {r : ContactIdentity} {id : Id} :
    IdentityKey.id id ∈ r.keys ↔ r.id = id := by
  simp [ContactIdentity.keys, eq_comm]

@[simp] theorem ContactIdentity.external_mem_keys {r : ContactIdentity} {channelId : Id}
    {externalId : String} :
    IdentityKey.external channelId externalId ∈ r.keys ↔
      r.providerAccountId = channelId ∧ r.externalId = externalId := by
  simp [ContactIdentity.keys, eq_comm]

theorem ContactIdentity.id_of_find? {t : Identities} {id : Id} {r : ContactIdentity}
    (h : t.find? (.id id) = some r) : r.id = id :=
  ContactIdentity.id_mem_keys.mp (Table.find?_eq_some.mp h).2

theorem ContactIdentity.find?_of_mem {t : Identities} {r : ContactIdentity} (h : r ∈ t.rows) :
    t.find? (.id r.id) = some r :=
  Table.find?_eq_some.mpr ⟨h, ContactIdentity.id_mem_keys.mpr rfl⟩

/-- A conversation is found under its id. -/
theorem Conversation.find?_of_mem {t : Conversations} {c : Conversation} (h : c ∈ t.rows) :
    t.find? c.id = some c :=
  Table.find?_eq_some.mpr ⟨h, Conversation.mem_keys.mpr rfl⟩

/-- Rows with one id are one row. -/
theorem Conversation.eq_of_id {t : Conversations} {b c : Conversation} (hb : b ∈ t.rows)
    (hc : c ∈ t.rows) (h : b.id = c.id) : b = c :=
  Table.eq_of_shared_key hb hc (Conversation.mem_keys.mpr h) (Conversation.mem_keys.mpr rfl)

theorem ContactIdentity.eq_of_id {t : Identities} {r r' : ContactIdentity} (hr : r ∈ t.rows)
    (hr' : r' ∈ t.rows) (h : r.id = r'.id) : r = r' :=
  Table.eq_of_shared_key hr hr' (ContactIdentity.id_mem_keys.mpr h)
    (ContactIdentity.id_mem_keys.mpr rfl)

theorem Contact.eq_of_id {t : Contacts} {c c' : Contact} (hc : c ∈ t.rows) (hc' : c' ∈ t.rows)
    (h : c.id = c'.id) : c = c' :=
  Table.eq_of_shared_key hc hc' (k := c.id) List.mem_cons_self (List.mem_singleton.mpr h)

/-- At most one conversation meets a condition where all that meet it have one id. -/
theorem Conversation.count_le_one_iff {t : Conversations} {p : Conversation → Bool} :
    t.count p ≤ 1 ↔ ∀ b ∈ t.rows, ∀ c ∈ t.rows, p b = true → p c = true → b.id = c.id := by
  have hkeys : ∀ c : Conversation, c.keys ≠ [] := fun c => List.cons_ne_nil _ _
  rw [Table.count_le_one_iff hkeys]
  constructor
  · intro h b hb c hc hpb hpc
    rw [h b hb c hc hpb hpc]
  · intro h b hb c hc hpb hpc
    exact Conversation.eq_of_id hb hc (h b hb c hc hpb hpc)

theorem Contact.id_of_find? {t : Contacts} {id : Id} {c : Contact} (h : t.find? id = some c) :
    c.id = id :=
  (List.mem_singleton.mp (Table.find?_eq_some.mp h).2).symm

theorem Contact.find?_of_mem {t : Contacts} {c : Contact} (h : c ∈ t.rows) :
    t.find? c.id = some c :=
  Table.find?_eq_some.mpr ⟨h, List.mem_singleton.mpr rfl⟩

/-! ## What an ingest writes of its sender -/

/-- The contact and the identity that the writes for a new sender add. -/
structure NewSender (db db' : Db) (request : IngestRequest) (ref : SenderRef) (contact : Contact)
    (identity : ContactIdentity) : Prop where
  contactId : contact.id = ref.contactId
  identityId : identity.id = ref.identityId
  owner : identity.contactId = ref.contactId
  channel : identity.providerAccountId = request.channel.id
  external : identity.externalId = request.message.sender.identifier
  contacts : db.contacts.insert? contact = some db'.contacts
  identities : db.identities.insert? identity = some db'.identities

/-- Rows that are updated and keep their keys. -/
structure Refreshed (db db' : Db) : Prop where
  identities : ∃ f : ContactIdentity → ContactIdentity,
    db'.identities.rows = db.identities.rows.map f ∧
      ∀ r, (f r).keys = r.keys ∧ (f r).contactId = r.contactId
  contacts : ∃ g : Contact → Contact,
    db'.contacts.rows = db.contacts.rows.map g ∧ ∀ c, (g c).keys = c.keys

theorem Refreshed.refl (db : Db) : Refreshed db db where
  identities := ⟨id, (List.map_id _).symm, fun _ => ⟨rfl, rfl⟩⟩
  contacts := ⟨id, (List.map_id _).symm, fun _ => rfl⟩

theorem sender_of_writeSender {db db' : Db} {request : IngestRequest} {ref : SenderRef} {now : Date}
    (h : writeSender db request ref now = some db') :
    ref.existing = none ∧ (∃ contact identity, NewSender db db' request ref contact identity) ∨
      ref.existing.isSome = true ∧ Refreshed db db' := by
  simp only [writeSender] at h
  split at h
  next hnew =>
    split at h
    next contacts identities hcontacts hidentities =>
      cases h
      exact Or.inl ⟨hnew, _, _, rfl, rfl, rfl, rfl, rfl, hcontacts, hidentities⟩
    · cases h
  next identity contact hold =>
    cases h
    refine Or.inr ⟨by rw [hold]; rfl, ⟨_, rfl, fun r => ?_⟩, ⟨_, rfl, fun c => ?_⟩⟩
    · split <;> exact ⟨rfl, rfl⟩
    · split <;> rfl

/-- The tables of the sender after a committed ingest are those its writes left. -/
theorem sender_of_ingest {db db' : Db} {tx : IngestTx} {read : Option Conversation}
    {replyTo : Option Id} {fresh : Conversation} {result : IngestResult}
    (h : ingestInTransaction db tx read replyTo fresh = some (db', result)) :
    ∃ db₁, writeSender db tx.request tx.sender tx.now = some db₁ ∧
      db'.contacts = db₁.contacts ∧ db'.identities = db₁.identities := by
  simp only [ingestInTransaction, Option.bind_eq_bind, Option.bind_eq_some_iff] at h
  obtain ⟨db₁, hsender, ⟨t, c⟩, _, messages, _, heq⟩ := h
  simp only [Option.some.injEq, Prod.mk.injEq] at heq
  obtain ⟨rfl, _⟩ := heq
  exact ⟨db₁, hsender, rfl, rfl⟩

/-- The commit that created an identity, with its contact. -/
structure Creates (w : World) (db : Db) (i : CallId) (tx : IngestTx) (contact : Contact)
    (identity : ContactIdentity) : Prop where
  call : ∃ read replyTo, w.call i = .writing tx read replyTo
  absent : tx.sender.existing = none
  added : NewSender w.db db tx.request tx.sender contact identity

/-- The keys of a created identity were free. -/
theorem Creates.free {w : World} {db : Db} {i : CallId} {tx : IngestTx} {contact : Contact}
    {identity : ContactIdentity} (h : Creates w db i tx contact identity) {k : IdentityKey}
    (hk : k ∈ identity.keys) : w.db.identities.find? k = none :=
  Table.free_iff_find?_eq_none.mp (Table.insert?_eq_some.mp h.added.identities).1 k hk

theorem Creates.contact_free {w : World} {db : Db} {i : CallId} {tx : IngestTx} {contact : Contact}
    {identity : ContactIdentity} (h : Creates w db i tx contact identity) :
    w.db.contacts.find? contact.id = none :=
  Table.free_iff_find?_eq_none.mp (Table.insert?_eq_some.mp h.added.contacts).1 _
    (List.mem_singleton.mpr rfl)

/-- What a step does to contacts and identities. -/
inductive SenderStep (w : World) : Action → Db → Prop where
  | refreshed {a : Action} {db : Db} : Refreshed w.db db → SenderStep w a db
  | created {i : CallId} {conversationId : Id} {createdAt : Date} {assignee : Option Id}
      {tx : IngestTx} {contact : Contact} {identity : ContactIdentity} {db : Db} :
      Creates w db i tx contact identity →
      SenderStep w (.commitIngest i conversationId createdAt assignee) db

/-- The tables of the senders are the same. -/
def SameSenders (db db' : Db) : Prop :=
  db'.identities = db.identities ∧ db'.contacts = db.contacts

theorem SameSenders.refreshed {db db' : Db} (h : SameSenders db db') : Refreshed db db' where
  identities := ⟨id, by rw [h.1, List.map_id], fun _ => ⟨rfl, rfl⟩⟩
  contacts := ⟨id, by rw [h.2, List.map_id], fun _ => rfl⟩

/-- Agents write neither contacts nor identities. -/
theorem sameSenders_of_commitSend {db db' : Db} {d : Draft} {createdAt : Date}
    (h : commitSend db d createdAt = some db') : SameSenders db db' := by
  simp only [commitSend, Option.bind_eq_bind, Option.bind_eq_some_iff] at h
  obtain ⟨messages, _, h⟩ := h
  split at h
  · cases h
    exact ⟨rfl, rfl⟩
  · split at h
    · cases h
      exact ⟨rfl, rfl⟩
    · cases h

theorem sameSenders_of_commitMarkRead {db db' : Db} {conversationId : Id}
    (h : commitMarkRead db conversationId = some db') : SameSenders db db' := by
  simp only [commitMarkRead] at h
  split at h
  · cases h
    exact ⟨rfl, rfl⟩
  · cases h

theorem sameSenders_of_commitUpdate {db db' : Db} {ch : Change} {ids : List Id} {createdAt : Date}
    (h : commitUpdate db ch ids createdAt = some db') : SameSenders db db' := by
  simp only [commitUpdate] at h
  split at h
  · cases h
  · simp only [Option.bind_eq_bind, Option.bind_eq_some_iff] at h
    obtain ⟨messages, _, heq⟩ := h
    cases heq
    exact ⟨rfl, rfl⟩

/-- A commit of an ingest writes the sender as it was read, or nothing. -/
theorem sender_of_commitIngest {w w' : World} {i : CallId} {conversationId : Id} {createdAt : Date}
    {assignee : Option Id} {tx : IngestTx} {read : Option Conversation} {replyTo : Option Id}
    (h : step w (.commitIngest i conversationId createdAt assignee) = some w')
    (hcall : w.call i = .writing tx read replyTo) :
    w'.db = w.db ∨
      tx.sender.existing = none ∧ (∃ contact identity, Creates w w'.db i tx contact identity) ∨
      tx.sender.existing.isSome = true ∧ Refreshed w.db w'.db := by
  simp only [step, stepCommitIngest, hcall] at h
  split at h
  next db result hin =>
    cases h
    right
    obtain ⟨db₁, hsender, hcontacts, hidentities⟩ := sender_of_ingest hin
    show _ ∧ (∃ contact identity, Creates w db i tx contact identity) ∨ _ ∧ Refreshed w.db db
    rcases sender_of_writeSender hsender with ⟨hnew, contact, identity, hadded⟩ | ⟨hold, hrows⟩
    · refine Or.inl ⟨hnew, contact, identity, ⟨_, _, hcall⟩, hnew, hadded.contactId,
        hadded.identityId, hadded.owner, hadded.channel, hadded.external, ?_, ?_⟩
      · exact hadded.contacts.trans (congrArg some hcontacts.symm)
      · exact hadded.identities.trans (congrArg some hidentities.symm)
    · refine Or.inr ⟨hold, ?_, ?_⟩
      · exact hidentities ▸ hrows.identities
      · exact hcontacts ▸ hrows.contacts
  · cases h
    exact Or.inl rfl

theorem senderStep_of_step {w w' : World} {a : Action} (h : step w a = some w') :
    SenderStep w a w'.db := by
  rcases step_cases h with ⟨hdb, _⟩ | ⟨e, _, hcommit⟩
  · rw [hdb]
    exact .refreshed (.refl _)
  · generalize hdb : w'.db = db at hcommit
    cases hcommit with
    | send _ hsend => exact .refreshed (sameSenders_of_commitSend hsend).refreshed
    | markRead _ hmark => exact .refreshed (sameSenders_of_commitMarkRead hmark).refreshed
    | update _ hupdate => exact .refreshed (sameSenders_of_commitUpdate hupdate).refreshed
    | ingest hcall _ =>
        have hsender := sender_of_commitIngest h hcall
        rw [hdb] at hsender
        rcases hsender with rfl | ⟨_, contact, identity, hnew⟩ | ⟨_, hrows⟩
        · exact .refreshed (.refl _)
        · exact .created hnew
        · exact .refreshed hrows

/-! ## Rows that stay -/

/-- An identity stays under its keys, with its contact. -/
theorem identity_kept {w w' : World} {a : Action} (h : step w a = some w') {k : IdentityKey}
    {r : ContactIdentity} (hr : w.db.identities.find? k = some r) :
    ∃ r', w'.db.identities.find? k = some r' ∧ r'.keys = r.keys ∧ r'.contactId = r.contactId := by
  have hstep := senderStep_of_step h
  generalize hdb : w'.db = db at hstep
  cases hstep with
  | refreshed hold =>
      obtain ⟨f, hrows, hf⟩ := hold.identities
      refine ⟨f r, ?_, hf r⟩
      rw [Table.find?_of_map hrows fun r => (hf r).1, hr]
      rfl
  | created hnew => exact ⟨r, Table.find?_of_insert?_of_some hnew.added.identities hr, rfl, rfl⟩

theorem contact_kept {w w' : World} {a : Action} (h : step w a = some w') {id : Id} {c : Contact}
    (hc : w.db.contacts.find? id = some c) : ∃ c', w'.db.contacts.find? id = some c' := by
  have hstep := senderStep_of_step h
  generalize hdb : w'.db = db at hstep
  cases hstep with
  | refreshed hold =>
      obtain ⟨g, hrows, hg⟩ := hold.contacts
      refine ⟨g c, ?_⟩
      rw [Table.find?_of_map hrows hg, hc]
      rfl
  | created hnew => exact ⟨c, Table.find?_of_insert?_of_some hnew.added.contacts hc⟩

/-- The rows of the senders after a step: those before it, rewritten under their
keys, and at most one contact with one identity. -/
theorem senders_of_step {w w' : World} {a : Action} (h : step w a = some w') :
    ((∀ r' ∈ w'.db.identities.rows, ∃ r ∈ w.db.identities.rows,
        r'.keys = r.keys ∧ r'.contactId = r.contactId) ∧
      ∀ c' ∈ w'.db.contacts.rows, ∃ c ∈ w.db.contacts.rows, c'.id = c.id) ∨
    ∃ i tx contact identity, a.call = i ∧ Creates w w'.db i tx contact identity ∧
      w'.db.identities.rows = w.db.identities.rows ++ [identity] ∧
      w'.db.contacts.rows = w.db.contacts.rows ++ [contact] := by
  have hstep := senderStep_of_step h
  generalize w'.db = db at hstep
  cases hstep with
  | refreshed hold =>
      obtain ⟨f, hidentities, hf⟩ := hold.identities
      obtain ⟨g, hcontacts, hg⟩ := hold.contacts
      refine Or.inl ⟨fun r' hr' => ?_, fun c' hc' => ?_⟩
      · rw [hidentities] at hr'
        obtain ⟨r, hr, rfl⟩ := List.mem_map.mp hr'
        exact ⟨r, hr, hf r⟩
      · rw [hcontacts] at hc'
        obtain ⟨c, hc, rfl⟩ := List.mem_map.mp hc'
        exact ⟨c, hc, List.singleton_inj.mp (hg c)⟩
  | created hnew =>
      exact Or.inr ⟨_, _, _, _, rfl, hnew, (Table.insert?_eq_some.mp hnew.added.identities).2,
        (Table.insert?_eq_some.mp hnew.added.contacts).2⟩

/-- Rows with equal keys have one id and one sender. -/
theorem ContactIdentity.eq_of_keys {r r' : ContactIdentity} (h : r'.keys = r.keys) :
    r'.id = r.id ∧ r'.providerAccountId = r.providerAccountId ∧ r'.externalId = r.externalId := by
  simpa [ContactIdentity.keys] using h

/-! ## Conversations after a step -/

/-- What no step changes of a conversation. -/
structure SameThread (c c' : Conversation) : Prop where
  id : c'.id = c.id
  channel : c'.providerAccountId = c.providerAccountId
  identity : c'.contactIdentityId = c.contactIdentityId
  thread : c'.externalThreadId = c.externalThreadId

theorem SameThread.refl (c : Conversation) : SameThread c c := ⟨rfl, rfl, rfl, rfl⟩

theorem RowChange.sameThread {w : World} {a : Action} {e : Entry} {c c' : Conversation}
    (h : RowChange w a e c c') : SameThread c c' := by
  cases h <;> exact ⟨rfl, rfl, rfl, rfl⟩

theorem sameThread_of_change {w : World} {a : Action} {c c' : Conversation}
    (h : c' = c ∨ ∃ e, RowChange w a e c c') : SameThread c c' := by
  rcases h with rfl | ⟨e, h⟩
  · exact .refl _
  · exact h.sameThread

/-- A commit that creates a conversation. -/
structure Starts (w : World) (a : Action) (i : CallId) (tx : IngestTx) (c' : Conversation) :
    Prop where
  call : ∃ replyTo, w.call i = .writing tx none replyTo
  fresh : w.db.conversations.find? c'.id = none
  row : ∃ createdAt assignee replyTo, a = .commitIngest i c'.id createdAt assignee ∧
    c' = counted (newConversation tx.request tx.sender c'.id createdAt assignee) tx.createdAt
      (newMessage tx c'.id replyTo).text
      (newConversation tx.request tx.sender c'.id createdAt assignee)

/-- A commit creates at most one conversation. -/
theorem id_of_starts {w : World} {a : Action} {i j : CallId} {tx tx' : IngestTx} {b c : Conversation}
    (hb : Starts w a i tx b) (hc : Starts w a j tx' c) : b.id = c.id := by
  obtain ⟨_, _, _, hba, _⟩ := hb.row
  obtain ⟨_, _, _, hca, _⟩ := hc.row
  rw [hba, Action.commitIngest.injEq] at hca
  exact hca.2.1

/-- A conversation after a step was there, or an ingest has just created it. -/
theorem conversation_of_step {w w' : World} {a : Action} (h : step w a = some w')
    {c' : Conversation} (hc' : c' ∈ w'.db.conversations.rows) :
    (∃ c ∈ w.db.conversations.rows, c' = c ∨ ∃ e, RowChange w a e c c') ∨
      ∃ i tx, Starts w a i tx c' := by
  rcases step_cases h with ⟨hdb, _⟩ | ⟨e, _, hcommit⟩
  · rw [hdb] at hc'
    exact Or.inl ⟨c', hc', Or.inl rfl⟩
  · have hfind := Conversation.find?_of_mem hc'
    cases hbefore : w.db.conversations.find? c'.id with
    | some c =>
        obtain ⟨r, hr, hchange⟩ := hcommit.row hbefore
        rw [hfind] at hr
        cases hr
        exact Or.inl ⟨c, (Table.find?_eq_some.mp hbefore).1, Or.inr ⟨e, hchange⟩⟩
    | none =>
        obtain ⟨i, conversationId, createdAt, assignee, tx, replyTo, rfl, hcall, _, hrow⟩ :=
          hcommit.new_row hbefore hfind
        have hid : c'.id = conversationId := by
          rw [hrow]
          rfl
        subst hid
        exact Or.inr ⟨i, tx, ⟨replyTo, hcall⟩, hbefore, createdAt, assignee, replyTo, rfl, hrow⟩

/-- A conversation stays, on its channel and with its identity and thread. -/
theorem conversation_kept {w w' : World} {a : Action} (h : step w a = some w') {id : Id}
    {c : Conversation} (hc : w.db.conversations.find? id = some c) :
    ∃ c', w'.db.conversations.find? id = some c' ∧ (c' = c ∨ ∃ e, RowChange w a e c c') := by
  rcases step_cases h with ⟨hdb, _⟩ | ⟨e, _, hcommit⟩
  · rw [hdb]
    exact ⟨c, hc, Or.inl rfl⟩
  · obtain ⟨c', hc', hchange⟩ := hcommit.row hc
    exact ⟨c', hc', Or.inr ⟨e, hchange⟩⟩

/-- A call that stores its message commits to the conversation it has read, or to
one that it creates. -/
theorem commit_of_inserts {w w' : World} {a : Action} {i : CallId} {request : IngestRequest}
    {result : IngestResult} (h : step w a = some w') (hins : Inserts w w' a i request result) :
    ∃ tx read replyTo conversationId createdAt assignee,
      a = .commitIngest i conversationId createdAt assignee ∧ w.call i = .writing tx read replyTo ∧
      tx.request = request ∧ w'.db ≠ w.db ∧ ∃ c' ∈ w'.db.conversations.rows,
        c'.id = result.conversationId ∧ ((∃ c, read = some c ∧ c.id = c'.id) ∨ Starts w a i tx c') := by
  obtain ⟨m, hm, _, _⟩ := hins.stored
  obtain ⟨cid, rfl, hcommit, hcid⟩ := hins.committed
  have hdb : w'.db ≠ w.db := by
    intro hsame
    rw [hsame, hins.free] at hm
    cases hm
  obtain ⟨c', hc'⟩ := hcommit.exists_of_ingested
  have hends := hins.ends
  generalize hentry : Entry.ingested cid request.messageId = e at hcommit
  generalize hafter : w'.db = db at hcommit
  cases hcommit with
  | send | markRead | update => cases hentry
  | @ingest j conversationId createdAt assignee tx read replyTo _ _ c t hcall hin =>
      rw [Entry.ingested.injEq] at hentry
      have hrequest : tx.request = request := by
        simp only [step, stepCommitIngest, hcall] at h
        split at h
        · cases h
          have hends := (World.setCall_self w j _).symm.trans hends
          cases hends
          rfl
        · cases h
          have hends := (World.setCall_self w j _).symm.trans hends
          cases hends
      have hid := Conversation.id_of_find? hc'
      have hmem := (Table.find?_eq_some.mp hc').1
      rw [← hafter]
      refine ⟨tx, read, replyTo, conversationId, createdAt, assignee, rfl, hcall, hrequest, hdb, c',
        hmem, hid.trans hcid.symm, ?_⟩
      cases hin.target with
      | read => exact Or.inl ⟨c, rfl, hentry.1.symm.trans hid.symm⟩
      | created hinsert =>
          -- The id of the new conversation was free, so its row is not an old one.
          have hfree := Table.free_iff_find?_eq_none.mp (Table.insert?_eq_some.mp hinsert).1
            (newConversation tx.request tx.sender conversationId createdAt assignee).id
            (Conversation.mem_keys.mpr rfl)
          rcases conversation_of_step h hmem with ⟨c₀, hc₀, hchange⟩ | ⟨i, tx', hstarts⟩
          · have hid₀ := (sameThread_of_change hchange).id
            have hfind := Conversation.find?_of_mem hc₀
            rw [← hid₀, hid, hentry.1, hfree] at hfind
            cases hfind
          · obtain ⟨createdAt', assignee', _, haction, _⟩ := hstarts.row
            rw [Action.commitIngest.injEq] at haction
            obtain ⟨rfl, _⟩ := haction
            obtain ⟨replyTo', hcall'⟩ := hstarts.call
            rw [hcall] at hcall'
            cases hcall'
            exact Or.inr hstarts

section Starts

variable {w w' : World} {a : Action} {i : CallId} {tx : IngestTx} {c' : Conversation}

/-- A conversation that is created is on the channel of the request. -/
theorem Starts.channel (h : Starts w a i tx c') : c'.providerAccountId = tx.request.channel.id := by
  obtain ⟨_, _, _, _, hrow⟩ := h.row
  rw [hrow]
  rfl

/-- A conversation that is created is with the identity of the sender. -/
theorem Starts.identity (h : Starts w a i tx c') : c'.contactIdentityId = tx.sender.identityId := by
  obtain ⟨_, _, _, _, hrow⟩ := h.row
  rw [hrow]
  rfl

theorem Starts.action_call (h : Starts w a i tx c') : a.call = i := by
  obtain ⟨_, _, _, haction, _⟩ := h.row
  rw [haction]
  rfl

/-- A commit that creates a conversation writes. -/
theorem Starts.db_ne (h : Starts w a i tx c') (hc' : c' ∈ w'.db.conversations.rows) :
    w'.db ≠ w.db := by
  intro hsame
  have hfind := Conversation.find?_of_mem hc'
  rw [hsame, h.fresh] at hfind
  cases hfind

/-- A conversation that is created has the message that is stored. -/
theorem stored_of_starts (h : step w a = some w') (hc' : c' ∈ w'.db.conversations.rows)
    (hstarts : Starts w a i tx c') :
    ∃ m, w'.db.messages.find? tx.request.key = some m ∧ m.conversationId = c'.id := by
  obtain ⟨replyTo, hcall⟩ := hstarts.call
  obtain ⟨createdAt, assignee, _, rfl, _⟩ := hstarts.row
  rcases inserts_of_commitIngest h hcall with ⟨hsame, _⟩ | ⟨result, hins⟩
  · exact absurd hsame (hstarts.db_ne hc')
  · obtain ⟨m, hm, _, hmid⟩ := hins.stored
    refine ⟨m, hm, ?_⟩
    obtain ⟨tx', read, _, _, _, _, haction, hcall', _, _, c'', _, hid, hwhich⟩ :=
      commit_of_inserts h hins
    rw [hcall] at hcall'
    cases hcall'
    rcases hwhich with ⟨c, hread, _⟩ | hstarts'
    · cases hread
    · rw [hmid, ← hid]
      exact id_of_starts hstarts' hstarts

end Starts

/-! ## The contact of an identity -/

/-- Every identity has its contact, as the foreign key demands. -/
def HasContacts (db : Db) : Prop :=
  ∀ r ∈ db.identities.rows, ∃ c, db.contacts.find? r.contactId = some c

/-- The contacts and identities that a run has created, each with the other. -/
structure Paired (db₀ db : Db) : Prop where
  references : HasContacts db
  contactsKept : ∀ id c, db₀.contacts.find? id = some c → ∃ c', db.contacts.find? id = some c'
  identitiesKept : ∀ k r, db₀.identities.find? k = some r → ∃ r', db.identities.find? k = some r'
  contact : ∀ r ∈ db.identities.rows, db₀.identities.find? (.id r.id) = none →
    ∃ c ∈ db.contacts.rows, c.id = r.contactId ∧ db₀.contacts.find? c.id = none
  identity : ∀ c ∈ db.contacts.rows, db₀.contacts.find? c.id = none →
    ∃ r ∈ db.identities.rows, r.contactId = c.id ∧
      ∀ r' ∈ db.identities.rows, r'.contactId = c.id → r'.id = r.id

theorem paired_refl {db : Db} (h : HasContacts db) : Paired db db where
  references := h
  contactsKept _ c hc := ⟨c, hc⟩
  identitiesKept _ r hr := ⟨r, hr⟩
  contact r hr hnone := by
    rw [ContactIdentity.find?_of_mem hr] at hnone
    cases hnone
  identity c hc hnone := by
    rw [Contact.find?_of_mem hc] at hnone
    cases hnone

/-- A key that is free after some steps was free before them. -/
theorem Paired.contact_free {db₀ db : Db} (h : Paired db₀ db) {id : Id}
    (hnone : db.contacts.find? id = none) : db₀.contacts.find? id = none := by
  cases hfind : db₀.contacts.find? id with
  | none => rfl
  | some c =>
      obtain ⟨c', hc'⟩ := h.contactsKept id c hfind
      rw [hnone] at hc'
      cases hc'

/-- A created contact is the contact of the created identity alone. -/
theorem paired_of_creates {db₀ : Db} {w : World} {db : Db} {i : CallId} {tx : IngestTx}
    {contact : Contact} {identity : ContactIdentity} (hw : Paired db₀ w.db)
    (hnew : Creates w db i tx contact identity)
    (hidentities : db.identities.rows = w.db.identities.rows ++ [identity])
    (hcontacts : db.contacts.rows = w.db.contacts.rows ++ [contact]) : Paired db₀ db := by
  have howner : identity.contactId = contact.id :=
    hnew.added.owner.trans hnew.added.contactId.symm
  have hkept : ∀ id c, w.db.contacts.find? id = some c → db.contacts.find? id = some c :=
    fun id c hc => Table.find?_of_append_of_some hcontacts hc
  have hcontact : contact ∈ db.contacts.rows := by simp [hcontacts]
  have hidentity : identity ∈ db.identities.rows := by simp [hidentities]
  -- No earlier identity has the new contact.
  have hforeign : ∀ r ∈ w.db.identities.rows, r.contactId ≠ contact.id := by
    intro r hr heq
    obtain ⟨c, hc⟩ := hw.references r hr
    rw [heq, hnew.contact_free] at hc
    cases hc
  refine ⟨?_, ?_, ?_, ?_, ?_⟩
  · intro r hr
    rw [hidentities, List.mem_append, List.mem_singleton] at hr
    rcases hr with hold | rfl
    · obtain ⟨c, hc⟩ := hw.references r hold
      exact ⟨c, hkept _ c hc⟩
    · exact ⟨contact, howner ▸ Contact.find?_of_mem hcontact⟩
  · intro id c hc
    obtain ⟨c', hc'⟩ := hw.contactsKept id c hc
    exact ⟨c', hkept id c' hc'⟩
  · intro k r hr
    obtain ⟨r', hr'⟩ := hw.identitiesKept k r hr
    exact ⟨r', Table.find?_of_append_of_some hidentities hr'⟩
  · intro r hr hnone
    rw [hidentities, List.mem_append, List.mem_singleton] at hr
    rcases hr with hold | rfl
    · obtain ⟨c, hc, hid, hfree⟩ := hw.contact r hold hnone
      exact ⟨c, by simp [hcontacts, hc], hid, hfree⟩
    · exact ⟨contact, hcontact, howner.symm, hw.contact_free hnew.contact_free⟩
  · intro c hc hnone
    rw [hcontacts, List.mem_append, List.mem_singleton] at hc
    rcases hc with hold | rfl
    · obtain ⟨r, hr, hrc, honly⟩ := hw.identity c hold hnone
      refine ⟨r, by simp [hidentities, hr], hrc, fun r' hr' hrc' => ?_⟩
      rw [hidentities, List.mem_append, List.mem_singleton] at hr'
      rcases hr' with hr' | rfl
      · exact honly r' hr' hrc'
      · have hfree := hnew.contact_free
        rw [← howner, hrc', Contact.find?_of_mem hold] at hfree
        cases hfree
    · refine ⟨identity, hidentity, howner, fun r' hr' hrc' => ?_⟩
      rw [hidentities, List.mem_append, List.mem_singleton] at hr'
      rcases hr' with hr' | rfl
      · exact absurd hrc' (hforeign r' hr')
      · rfl

/-- Every step keeps contacts and identities paired. -/
theorem paired_step {db₀ : Db} {w w' : World} {a : Action} (hw : Paired db₀ w.db)
    (h : step w a = some w') : Paired db₀ w'.db := by
  rcases senders_of_step h with ⟨hidentities, hcontacts⟩ | ⟨i, tx, contact, identity, _, hnew, hi, hc⟩
  · refine ⟨?_, ?_, ?_, ?_, ?_⟩
    · intro r' hr'
      obtain ⟨r, hr, _, hrc⟩ := hidentities r' hr'
      obtain ⟨c, hc⟩ := hw.references r hr
      rw [hrc]
      exact contact_kept h hc
    · intro id c hc
      obtain ⟨c', hc'⟩ := hw.contactsKept id c hc
      exact contact_kept h hc'
    · intro k r hr
      obtain ⟨r', hr'⟩ := hw.identitiesKept k r hr
      obtain ⟨r'', hr'', _⟩ := identity_kept h hr'
      exact ⟨r'', hr''⟩
    · intro r' hr' hnone
      obtain ⟨r, hr, hkeys, hrc⟩ := hidentities r' hr'
      rw [(ContactIdentity.eq_of_keys hkeys).1] at hnone
      obtain ⟨c, hc, hid, hfree⟩ := hw.contact r hr hnone
      obtain ⟨c', hc'⟩ := contact_kept h (Contact.find?_of_mem hc)
      have hid' := Contact.id_of_find? hc'
      refine ⟨c', (Table.find?_eq_some.mp hc').1, ?_, ?_⟩
      · rw [hid', hid, hrc]
      · rw [hid']
        exact hfree
    · intro c' hc' hnone
      obtain ⟨c, hc, hid⟩ := hcontacts c' hc'
      rw [hid] at hnone ⊢
      obtain ⟨r, hr, hrc, honly⟩ := hw.identity c hc hnone
      obtain ⟨r', hr', hkeys', hrc'⟩ := identity_kept h (ContactIdentity.find?_of_mem hr)
      refine ⟨r', (Table.find?_eq_some.mp hr').1, hrc'.trans hrc, fun s' hs' hsc' => ?_⟩
      obtain ⟨s, hs, hskeys, hsc⟩ := hidentities s' hs'
      rw [(ContactIdentity.eq_of_keys hskeys).1, (ContactIdentity.eq_of_keys hkeys').1]
      exact honly s hs (hsc.symm.trans hsc')
  · exact paired_of_creates hw hnew hi hc

end Vynor.Conversations
