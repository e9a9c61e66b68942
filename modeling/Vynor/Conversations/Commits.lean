import Vynor.Conversations.System

/-!
# What a step commits

A step either leaves the database alone or commits one transaction.
`step_cases` says so once, and the lemmas below it say what a commit does to
the row of a conversation and to the messages.
-/

namespace Vynor.Conversations

open Lib (Table Machine)

/-- The transactions a step can commit, with the table after them and the entry
they leave. -/
inductive Committed (w : World) : Action → Db → Entry → Prop where
  | ingest {i : CallId} {conversationId : Id} {createdAt : Date} {assignee : Option Id}
      {tx : IngestTx} {read : Option Conversation} {replyTo : Option Id} {db : Db}
      {result : IngestResult} {c : Conversation} {t : Conversations} :
      w.call i = .writing tx read replyTo →
      Ingested w.db db tx read replyTo
        (newConversation tx.request tx.sender conversationId createdAt assignee) result c t →
      Committed w (.commitIngest i conversationId createdAt assignee) db
        (.ingested c.id tx.request.messageId)
  | send {i : CallId} {createdAt : Date} {d : Draft} {db : Db} :
      w.call i = .sending d → commitSend w.db d createdAt = some db →
      Committed w (.commitSend i createdAt) db
        (.sent d.conversation.id d.id d.now d.request.isPrivate)
  | markRead {i : CallId} {conversationId : Id} {db : Db} :
      w.call i = .marking conversationId → commitMarkRead w.db conversationId = some db →
      Committed w (.commitMarkRead i) db (.markedRead conversationId)
  | update {i : CallId} {ids : List Id} {createdAt : Date} {ch : Change} {db : Db} :
      w.call i = .updating ch → commitUpdate w.db ch ids createdAt = some db →
      Committed w (.commitUpdate i ids createdAt) db
        (.updated ch.conversation.id (auditBefore ch) (auditAfter ch))

/-! ## How a call moves -/

/-- The point to which a step moves its call. -/
inductive Moved (w : World) : Action → Call → Prop where
  | ingest {i : CallId} {request : IngestRequest} : w.call i = .idle →
      Moved w (.ingest i request) (.waiting request 1)
  | finds {i : CallId} {request : IngestRequest} {result : IngestResult} : w.call i = .idle →
      findDuplicate w.db.messages request = some result →
      Moved w (.ingest i request) (.ingested request result)
  | lock {i : CallId} {request : IngestRequest} {attempt : Nat} :
      w.call i = .waiting request attempt → Moved w (.lock i) (.locked request attempt)
  | readSender {i : CallId} {now : Date} {contactId identityId : Id} {request : IngestRequest}
      {attempt : Nat} : w.call i = .locked request attempt →
      Moved w (.readSender i now contactId identityId)
        (.resolving ⟨request, attempt, now, findSender w.db request contactId identityId⟩)
  | readOpen {i : CallId} {found : List Conversation} {tx : IngestTx} : w.call i = .resolving tx →
      w.db.conversations.Selects (openFor tx.request.channel.id tx.sender.identityId) latestFirst 1
        found →
      Moved w (.readOpen i found) (.resolved tx found.head?)
  | readThread {i : CallId} {found : List Conversation} {tx : IngestTx} {threadId : String} :
      w.call i = .resolving tx →
      w.db.conversations.Selects (inThread tx.request.channel.id threadId) newestFirst 1 found →
      Moved w (.readThread i found) (.resolved tx found.head?)
  | follows {i : CallId} {tx : IngestTx} {target : String} : w.call i = .resolving tx →
      Moved w (.readThread i []) (.threading tx target)
  | readTarget {i : CallId} {tx : IngestTx} {target : String} {m : Message} :
      w.call i = .threading tx target → Moved w (.readTarget i) (.targeted tx m.conversationId)
  | noTarget {i : CallId} {tx : IngestTx} {target : String} : w.call i = .threading tx target →
      Moved w (.readTarget i) (.resolved tx none)
  | readConversation {i : CallId} {tx : IngestTx} {conversationId : Id} :
      w.call i = .targeted tx conversationId →
      Moved w (.readConversation i) (.resolved tx (w.db.conversations.find? conversationId))
  | readReplyTarget {i : CallId} {tx : IngestTx} {read : Option Conversation} :
      w.call i = .resolved tx read →
      Moved w (.readReplyTarget i) (.writing tx read (replyTarget w.db tx))
  | commitIngest {i : CallId} {conversationId : Id} {createdAt : Date} {assignee : Option Id}
      {tx : IngestTx} {read : Option Conversation} {replyTo : Option Id} {result : IngestResult} :
      w.call i = .writing tx read replyTo →
      Moved w (.commitIngest i conversationId createdAt assignee) (.ingested tx.request result)
  | violates {i : CallId} {conversationId : Id} {createdAt : Date} {assignee : Option Id}
      {tx : IngestTx} {read : Option Conversation} {replyTo : Option Id} :
      w.call i = .writing tx read replyTo →
      Moved w (.commitIngest i conversationId createdAt assignee) (.violated tx.request)
  | lookAgain {i : CallId} {request : IngestRequest} {result : IngestResult} :
      w.call i = .violated request → findDuplicate w.db.messages request = some result →
      Moved w (.lookAgain i) (.ingested request result)
  | plansMarkRead {i : CallId} {actor : Actor} {conversationId : Id} {c : Conversation} :
      w.call i = .idle → Moved w (.markRead i actor conversationId) (.marking c.id)
  | plansSend {i : CallId} {actor : Actor} {channel : ProviderAccount} {c : Conversation}
      {conversationId id : Id} {request : SendMessageRequest} {now : Date} :
      w.call i = .idle → findConversation w.db actor conversationId = some c →
      Moved w (.send i actor channel conversationId request id now)
        (.sending ⟨actor, c, request, id, now⟩)
  | plansUpdate {i : CallId} {actor : Actor} {conversationId : Id} {c : Conversation}
      {request : UpdateConversationRequest} {member : Option (Id × String)} {now : Date}
      {ch : Change} :
      w.call i = .idle → planUpdate actor c request member now = some ch →
      Moved w (.update i actor conversationId request member now) (.updating ch)
  | returns {a : Action} : Moved w a .returned
  | throws {a : Action} : Moved w a .threw
  | retries {i : CallId} {retryable : Bool} {request : IngestRequest} {attempt : Nat} :
      Moved w (.fails i retryable) (.waiting request attempt)

theorem moved_afterThread {w : World} {i : CallId} {found : List Conversation} {tx : IngestTx}
    {threadId : String} (hcall : w.call i = .resolving tx)
    (hfound : w.db.conversations.Selects (inThread tx.request.channel.id threadId) newestFirst 1
      found) :
    Moved w (.readThread i found) (afterThread tx found) := by
  cases found with
  | cons c rest => exact .readThread hcall hfound
  | nil =>
      simp only [afterThread]
      split
      · exact .follows hcall
      · exact .readThread hcall hfound

theorem moved_afterFailure {w : World} (i : CallId) (retryable : Bool) (request : IngestRequest)
    (attempt : Nat) : Moved w (.fails i retryable) (afterFailure request attempt retryable) := by
  simp only [afterFailure]
  split
  · exact .retries
  · exact .throws

/-- What a step does: it moves its call to one of these points, and leaves the tables
alone or commits. -/
structure Steps (w : World) (a : Action) (w' : World) : Prop where
  call : ∃ c, Moved w a c ∧ w'.call = Function.update w.call a.call c
  tables : (w'.db = w.db ∧ w'.log = w.log) ∨
    ∃ e, w'.log = e :: w.log ∧ Committed w a w'.db e

/-- A step that only moves its call. -/
theorem Steps.moves {w : World} {a : Action} {c : Call} {locks : List LockKey} (h : Moved w a c) :
    Steps w a { w.setCall a.call c with locks := locks } :=
  ⟨⟨c, h, rfl⟩, Or.inl ⟨rfl, rfl⟩⟩

theorem steps_commitIngest {w w' : World} {i : CallId} {conversationId : Id} {createdAt : Date}
    {assignee : Option Id} (h : step w (.commitIngest i conversationId createdAt assignee) = some w') :
    Steps w (.commitIngest i conversationId createdAt assignee) w' := by
  simp only [step, stepCommitIngest] at h
  split at h
  next tx read replyTo hcall =>
    split at h
    next db result hdb =>
      cases h
      obtain ⟨c, t, hin⟩ := ingested_of_eq_some hdb
      refine ⟨⟨_, .commitIngest hcall, rfl⟩, Or.inr ⟨.ingested c.id tx.request.messageId, ?_,
        .ingest hcall hin⟩⟩
      rw [hin.result]
      rfl
    next =>
      cases h
      exact .moves (.violates hcall)
  next => cases h

theorem steps_fails {w w' : World} {i : CallId} {retryable : Bool}
    (h : step w (.fails i retryable) = some w') : Steps w (.fails i retryable) w' := by
  simp only [step, stepFails] at h
  split at h
  next =>
    cases h
    exact .moves (moved_afterFailure i retryable _ _)
  next =>
    split at h
    next =>
      cases h
      exact .moves (moved_afterFailure i retryable _ _)
    next =>
      split at h
      next => cases h
      next =>
        cases h
        exact .moves .throws

theorem steps_of_step {w w' : World} {a : Action} (h : step w a = some w') : Steps w a w' := by
  cases a with
  | ingest i request =>
      simp only [step] at h
      split at h
      next hcall =>
        cases h
        refine .moves ?_
        unfold afterLookup
        split
        next hfound => exact .finds hcall hfound
        next => exact .ingest hcall
      next => cases h
  | lock i =>
      simp only [step] at h
      split at h
      next hcall =>
        split at h
        next => cases h
        next =>
          cases h
          exact .moves (.lock hcall)
      next => cases h
  | readSender i now contactId identityId =>
      simp only [step] at h
      split at h
      next hcall =>
        cases h
        exact .moves (.readSender hcall)
      next => cases h
  | readOpen i found =>
      simp only [step] at h
      split at h
      next hcall =>
        split at h
        next hfound =>
          cases h
          exact .moves (.readOpen hcall hfound.2)
        next => cases h
      next => cases h
  | readThread i found =>
      simp only [step] at h
      split at h
      next hcall =>
        split at h
        next => cases h
        next =>
          split at h
          next hfound =>
            cases h
            exact .moves (moved_afterThread hcall hfound)
          next => cases h
      next => cases h
  | readTarget i =>
      simp only [step] at h
      split at h
      next hcall =>
        split at h
        next =>
          cases h
          exact .moves (.readTarget hcall)
        next =>
          cases h
          exact .moves (.noTarget hcall)
      next => cases h
  | readConversation i =>
      simp only [step] at h
      split at h
      next hcall =>
        cases h
        exact .moves (.readConversation hcall)
      next => cases h
  | readReplyTarget i =>
      simp only [step] at h
      split at h
      next hcall =>
        cases h
        exact .moves (.readReplyTarget hcall)
      next => cases h
  | commitIngest i conversationId createdAt assignee => exact steps_commitIngest h
  | lookAgain i =>
      simp only [step] at h
      split at h
      next hcall =>
        cases h
        refine .moves ?_
        unfold afterLookup
        split
        next hfound => exact .lookAgain hcall hfound
        next => exact .throws
      next => cases h
  | markRead i actor conversationId =>
      simp only [step] at h
      split at h
      next hcall =>
        split at h
        next =>
          cases h
          exact .moves .throws
        next =>
          cases h
          refine .moves ?_
          split
          next => exact .returns
          next => exact .plansMarkRead hcall
      next => cases h
  | commitMarkRead i =>
      simp only [step] at h
      split at h
      next hcall =>
        obtain ⟨db, hdb, rfl⟩ := Option.map_eq_some_iff.mp h
        exact ⟨⟨_, .returns, rfl⟩, Or.inr ⟨_, rfl, .markRead hcall hdb⟩⟩
      next => cases h
  | send i actor channel conversationId request id now =>
      simp only [step] at h
      split at h
      next hcall =>
        split at h
        next =>
          cases h
          exact .moves .throws
        next hc =>
          split at h
          next =>
            cases h
            refine .moves ?_
            split
            next => exact .plansSend hcall hc
            next => exact .throws
          next => cases h
      next => cases h
  | commitSend i createdAt =>
      simp only [step] at h
      split at h
      next hcall =>
        obtain ⟨db, hdb, rfl⟩ := Option.map_eq_some_iff.mp h
        exact ⟨⟨_, .returns, rfl⟩, Or.inr ⟨_, rfl, .send hcall hdb⟩⟩
      next => cases h
  | update i actor conversationId request member now =>
      simp only [step] at h
      split at h
      next hcall =>
        split at h
        next =>
          cases h
          exact .moves .throws
        next =>
          split at h
          next =>
            cases h
            exact .moves .throws
          next hplan =>
            cases h
            refine .moves ?_
            split
            next => exact .returns
            next => exact .plansUpdate hcall hplan
      next => cases h
  | commitUpdate i ids createdAt =>
      simp only [step] at h
      split at h
      next hcall =>
        split at h
        next =>
          obtain ⟨db, hdb, rfl⟩ := Option.map_eq_some_iff.mp h
          exact ⟨⟨_, .returns, rfl⟩, Or.inr ⟨_, rfl, .update hcall hdb⟩⟩
        next => cases h
      next => cases h
  | fails i retryable => exact steps_fails h

/-- A step leaves the database alone, or commits. -/
theorem step_cases {w w' : World} {a : Action} (h : step w a = some w') :
    (w'.db = w.db ∧ w'.log = w.log) ∨ ∃ e, w'.log = e :: w.log ∧ Committed w a w'.db e :=
  (steps_of_step h).tables

/-- Every step moves its call to one of these points. -/
theorem step_moved {w w' : World} {a : Action} (h : step w a = some w') :
    Moved w a (w'.call a.call) := by
  obtain ⟨c, hmoved, hcall⟩ := (steps_of_step h).call
  rw [hcall, Function.update_self]
  exact hmoved

/-- A step moves one call. -/
theorem step_call_other {w w' : World} {a : Action} {j : CallId} (h : step w a = some w')
    (hj : j ≠ a.call) : w'.call j = w.call j := by
  obtain ⟨c, _, hcall⟩ := (steps_of_step h).call
  rw [hcall, Function.update_of_ne hj]

/-- A call that has ended does not move. -/
theorem not_ended_of_step {w w' : World} {a : Action} (h : step w a = some w') :
    (w.call a.call).ended = false := by
  cases a with
  | commitIngest i conversationId createdAt assignee =>
      simp only [step, stepCommitIngest] at h
      split at h
      next hcall => simp [Action.call, hcall, Call.ended]
      next => cases h
  | fails i retryable =>
      simp only [step, stepFails] at h
      cases hcall : w.call i <;> simp_all [Action.call, Call.ended, Call.transaction?]
  | _ =>
      simp only [step] at h
      split at h
      next hcall => simp [Action.call, hcall, Call.ended]
      next => cases h

theorem step_ended {w w' : World} {a : Action} {j : CallId} (h : step w a = some w')
    (hj : (w.call j).ended = true) : w'.call j = w.call j := by
  refine step_call_other h ?_
  rintro rfl
  rw [not_ended_of_step h] at hj
  cases hj

/-- What holds of a call after a step held of it before, or holds of the point
it was moved to. -/
theorem call_of_step {w w' : World} {a : Action} {j : CallId} (p : Call → Prop)
    (h : step w a = some w') (hp : p (w'.call j)) :
    p (w.call j) ∨ j = a.call ∧ ∃ c, Moved w a c ∧ p c := by
  by_cases hj : j = a.call
  · rw [hj] at hp
    exact Or.inr ⟨hj, _, step_moved h, hp⟩
  · rw [step_call_other h hj] at hp
    exact Or.inl hp

/-! ## The row of a conversation -/

/-- The ways a commit changes the row of a conversation. -/
inductive RowChange (w : World) : Action → Entry → Conversation → Conversation → Prop where
  | other {a : Action} {e : Entry} {r : Conversation} :
      e.conversationId ≠ r.id → RowChange w a e r r
  | ingest {i : CallId} {conversationId messageId : Id} {createdAt : Date} {assignee : Option Id}
      {tx : IngestTx} {replyTo : Option Id} {read r : Conversation} :
      w.call i = .writing tx (some read) replyTo → read.id = r.id →
      RowChange w (.commitIngest i conversationId createdAt assignee) (.ingested r.id messageId) r
        (counted read tx.createdAt (newMessage tx r.id replyTo).text r)
  | note {i : CallId} {createdAt now : Date} {messageId : Id} {r : Conversation} :
      RowChange w (.commitSend i createdAt) (.sent r.id messageId now true) r r
  | send {i : CallId} {createdAt : Date} {d : Draft} {r : Conversation} :
      w.call i = .sending d → d.conversation.id = r.id → d.request.isPrivate = false →
      RowChange w (.commitSend i createdAt) (.sent r.id d.id d.now false) r
        (answered d.now d.request.text r)
  | markRead {i : CallId} {r : Conversation} :
      RowChange w (.commitMarkRead i) (.markedRead r.id) r (markedRead r)
  | update {i : CallId} {ids : List Id} {createdAt : Date} {ch : Change} {r : Conversation} :
      w.call i = .updating ch → ch.conversation.id = r.id →
      RowChange w (.commitUpdate i ids createdAt) (.updated r.id (auditBefore ch) (auditAfter ch)) r
        (changed ch r)

/-- A conversation that was there is still there after a commit, changed in one
of these ways. -/
theorem Committed.row {w : World} {a : Action} {db : Db} {e : Entry} {id : Id} {r : Conversation}
    (h : Committed w a db e) (hr : w.db.conversations.find? id = some r) :
    ∃ r', db.conversations.find? id = some r' ∧ RowChange w a e r r' := by
  have hid := Conversation.id_of_find? hr
  cases h with
  | @ingest i conversationId createdAt assignee tx read replyTo _ result c t hcall hin =>
      have ht : t.find? id = some r := by
        cases hin.target with
        | read _ => exact hr
        | created hins => exact Table.find?_of_insert?_of_some hins hr
      rw [hin.counted]
      refine ⟨_, Table.find?_updateMany_of_some ht, ?_⟩
      by_cases hc : r.id = c.id
      · rw [if_pos (by simpa using hc), ← hc]
        cases hin.target with
        | @read c row hrow => exact .ingest hcall hc.symm
        | created hins =>
            -- A conversation that is inserted was not there before.
            have hfree := Table.free_iff_find?_eq_none.mp (Table.insert?_eq_some.mp hins).1
              (newConversation tx.request tx.sender conversationId createdAt assignee).id
              (Conversation.mem_keys.mpr rfl)
            rw [← hc, hid, hr] at hfree
            cases hfree
      · rw [if_neg (by simpa using hc)]
        exact .other fun he => hc he.symm
  | @send i createdAt d _ hcall hdb =>
      obtain ⟨_, hconv⟩ := commitSend_eq_some hdb
      rcases hconv with ⟨hprivate, hsame⟩ | ⟨hpublic, _, hupdate⟩
      · rw [hsame, hprivate]
        refine ⟨r, hr, ?_⟩
        by_cases hc : d.conversation.id = r.id
        · rw [hc]
          exact .note
        · exact .other hc
      · rw [hupdate, hpublic]
        refine ⟨_, Table.find?_updateMany_of_some hr, ?_⟩
        by_cases hc : d.conversation.id = r.id
        · rw [if_pos (by simpa using hc.symm), hc]
          exact .send hcall hc hpublic
        · rw [if_neg (by simpa using Ne.symm hc)]
          exact .other hc
  | @markRead i conversationId _ hcall hdb =>
      obtain ⟨_, _, hupdate⟩ := commitMarkRead_eq_some hdb
      rw [hupdate]
      refine ⟨_, Table.find?_updateMany_of_some hr, ?_⟩
      by_cases hc : conversationId = r.id
      · rw [if_pos (by simpa using hc.symm), hc]
        exact .markRead
      · rw [if_neg (by simpa using Ne.symm hc)]
        exact .other hc
  | @update i ids createdAt ch _ hcall hdb =>
      obtain ⟨_, _, hupdate⟩ := commitUpdate_eq_some hdb
      rw [hupdate]
      refine ⟨_, Table.find?_updateMany_of_some hr, ?_⟩
      by_cases hc : ch.conversation.id = r.id
      · rw [if_pos (by simpa using hc.symm), hc]
        exact .update hcall hc
      · rw [if_neg (by simpa using Ne.symm hc)]
        exact .other hc

/-- A conversation that was not there was created by an ingest. -/
theorem Committed.new_row {w : World} {a : Action} {db : Db} {e : Entry} {id : Id}
    {r : Conversation} (h : Committed w a db e) (hnone : w.db.conversations.find? id = none)
    (hr : db.conversations.find? id = some r) :
    ∃ i conversationId createdAt assignee tx replyTo,
      a = .commitIngest i conversationId createdAt assignee ∧
      w.call i = .writing tx none replyTo ∧ e = .ingested id tx.request.messageId ∧
      r = counted (newConversation tx.request tx.sender conversationId createdAt assignee)
        tx.createdAt (newMessage tx id replyTo).text
        (newConversation tx.request tx.sender conversationId createdAt assignee) := by
  cases h with
  | @ingest i conversationId createdAt assignee tx read replyTo _ result c t hcall hin =>
      rw [hin.counted, Table.find?_updateMany] at hr
      obtain ⟨r0, hr0, rfl⟩ := Option.map_eq_some_iff.mp hr
      cases hin.target with
      | read _ =>
          rw [hnone] at hr0
          cases hr0
      | created hins =>
          have hid := Conversation.id_of_find? hr0
          rw [Table.find?_of_insert? hins] at hr0
          split at hr0
          · cases hr0
            rw [if_pos (by simp), ← hid]
            exact ⟨i, conversationId, createdAt, assignee, tx, replyTo, rfl, hcall, rfl, rfl⟩
          · rw [hnone] at hr0
            cases hr0
  | @send i createdAt d _ hcall hdb =>
      obtain ⟨_, hconv⟩ := commitSend_eq_some hdb
      rcases hconv with ⟨_, hsame⟩ | ⟨_, _, hupdate⟩
      · rw [hsame, hnone] at hr
        cases hr
      · rw [hupdate, Table.find?_updateMany, hnone] at hr
        cases hr
  | markRead hcall hdb =>
      obtain ⟨_, _, hupdate⟩ := commitMarkRead_eq_some hdb
      rw [hupdate, Table.find?_updateMany, hnone] at hr
      cases hr
  | update hcall hdb =>
      obtain ⟨_, _, hupdate⟩ := commitUpdate_eq_some hdb
      rw [hupdate, Table.find?_updateMany, hnone] at hr
      cases hr

/-- The conversation of a committed ingest is there afterwards. -/
theorem Committed.exists_of_ingested {w : World} {a : Action} {db : Db} {c messageId : Id}
    (h : Committed w a db (.ingested c messageId)) : ∃ r, db.conversations.find? c = some r := by
  cases h with
  | @ingest i conversationId createdAt assignee tx read replyTo _ result c t hcall hin =>
      have ht : ∃ r, t.find? c.id = some r := by
        cases hin.target with
        | read hrow => exact ⟨_, hrow⟩
        | created hins =>
            refine ⟨newConversation tx.request tx.sender conversationId createdAt assignee, ?_⟩
            rw [Table.find?_of_insert? hins, if_pos (Conversation.mem_keys.mpr rfl)]
      obtain ⟨r, hr⟩ := ht
      rw [hin.counted]
      exact ⟨_, Table.find?_updateMany_of_some hr⟩

/-! ## The messages -/

/-- The messages a commit inserts. -/
inductive AddedBy (w : World) : Action → Entry → List Message → Prop where
  | ingest {i : CallId} {conversationId c : Id} {createdAt : Date} {assignee : Option Id}
      {tx : IngestTx} {read : Option Conversation} {replyTo : Option Id} :
      w.call i = .writing tx read replyTo →
      AddedBy w (.commitIngest i conversationId createdAt assignee)
        (.ingested c tx.request.messageId) [newMessage tx c replyTo]
  | send {i : CallId} {createdAt : Date} {d : Draft} :
      w.call i = .sending d →
      AddedBy w (.commitSend i createdAt) (.sent d.conversation.id d.id d.now d.request.isPrivate)
        [draftMessage d createdAt]
  | markRead {i : CallId} {c : Id} : AddedBy w (.commitMarkRead i) (.markedRead c) []
  | update {i : CallId} {ids : List Id} {createdAt : Date} {ch : Change}
      {before after : ConversationStatus × Option Id} {entries : List (Id × String)} :
      AddedBy w (.commitUpdate i ids createdAt) (.updated ch.conversation.id before after)
        (entries.map (systemMessage ch createdAt))

/-- A commit inserts these messages and changes no other. -/
theorem Committed.messages {w : World} {a : Action} {db : Db} {e : Entry}
    (h : Committed w a db e) :
    ∃ added, db.messages.rows = w.db.messages.rows ++ added ∧ AddedBy w a e added := by
  cases h with
  | ingest hcall hin => exact ⟨_, (Table.insert?_eq_some.mp hin.inserted).2, .ingest hcall⟩
  | send hcall hdb =>
      exact ⟨_, (Table.insert?_eq_some.mp (commitSend_eq_some hdb).1).2, .send hcall⟩
  | markRead _ hdb =>
      refine ⟨[], ?_, .markRead⟩
      rw [(commitMarkRead_eq_some hdb).2.1, List.append_nil]
  | update _ hdb => exact ⟨_, rows_of_insertAll (commitUpdate_eq_some hdb).2.1, .update⟩

/-- No step takes a message away. -/
theorem message_kept {w w' : World} {a : Action} {k : MessageKey} {m : Message}
    (h : step w a = some w') (hm : w.db.messages.find? k = some m) :
    w'.db.messages.find? k = some m := by
  rcases step_cases h with ⟨hdb, _⟩ | ⟨e, _, hc⟩
  · rw [hdb]
    exact hm
  · obtain ⟨added, hrows, _⟩ := hc.messages
    exact Table.find?_of_append_of_some hrows hm

end Vynor.Conversations
