import Vynor.Conversations.Threads

/-!
# The channel of a message

A message carries the id of its channel, and so does the conversation it is in.
The two agree for every message that is stored: an ingest reads conversations of
its own channel only, or one that holds a message of it, and an agent writes on
the channel of the conversation (`onChannel_of_run`).
-/

namespace Vynor.Conversations

open Lib (Table Machine)

/-- The conversation with this id is there, and on this channel. -/
def IsOn (db : Db) (conversationId channelId : Id) : Prop :=
  ∃ c, db.conversations.find? conversationId = some c ∧ c.providerAccountId = channelId

/-- The conversation a call writes to next, with the channel it takes it to be
on. -/
def Call.writesTo? : Call → Option (Id × Id)
  | .targeted tx conversationId => some (conversationId, tx.request.channel.id)
  | .resolved tx (some c) => some (c.id, tx.request.channel.id)
  | .writing tx (some c) _ => some (c.id, tx.request.channel.id)
  | .sending d => some (d.conversation.id, d.conversation.providerAccountId)
  | .updating ch => some (ch.conversation.id, ch.conversation.providerAccountId)
  | _ => none

/-- Every message is on the channel of its conversation, and so is what a call
writes next. -/
structure OnChannel (w : World) : Prop where
  messages : ∀ m ∈ w.db.messages.rows, IsOn w.db m.conversationId m.providerAccountId
  calls : ∀ i conversationId channelId, (w.call i).writesTo? = some (conversationId, channelId) →
    IsOn w.db conversationId channelId

section Step

variable {w w' : World} {a : Action}

theorem isOn_of_find? {db : Db} {id : Id} {c : Conversation}
    (h : db.conversations.find? id = some c) : IsOn db c.id c.providerAccountId := by
  rw [Conversation.id_of_find? h]
  exact ⟨c, h, rfl⟩

theorem isOn_kept (h : step w a = some w') {conversationId channelId : Id}
    (hon : IsOn w.db conversationId channelId) : IsOn w'.db conversationId channelId := by
  obtain ⟨c, hc, rfl⟩ := hon
  obtain ⟨c', hc', hchange⟩ := conversation_kept h hc
  exact ⟨c', hc', (sameThread_of_change hchange).channel⟩

/-- What an agent has read is a conversation of the table. -/
theorem isOn_of_findConversation {db : Db} {actor : Actor} {id : Id} {c : Conversation}
    (h : findConversation db actor id = some c) : IsOn db c.id c.providerAccountId :=
  isOn_of_find? (Option.filter_eq_some_iff.mp h).1

/-- A plan is for the conversation that was read. -/
theorem conversation_of_planUpdate {actor : Actor} {c : Conversation}
    {request : UpdateConversationRequest} {member : Option (Id × String)} {now : Date}
    {ch : Change} (h : planUpdate actor c request member now = some ch) : ch.conversation = c := by
  simp only [planUpdate, Option.bind_eq_bind, Option.bind_eq_some_iff] at h
  obtain ⟨_, _, _, _, hplan⟩ := h
  cases hplan
  rfl

/-! ## What a call writes to -/

/-- An update that has begun is for the conversation it has read. -/
theorem findConversation_of_update {i : CallId} {actor : Actor} {conversationId : Id}
    {request : UpdateConversationRequest} {member : Option (Id × String)} {now : Date} {ch : Change}
    (h : step w (.update i actor conversationId request member now) = some w')
    (hcall : w'.call i = .updating ch) :
    findConversation w.db actor conversationId = some ch.conversation := by
  simp only [step] at h
  split at h
  · split at h
    · cases h
      rw [World.setCall_self] at hcall
      cases hcall
    next c hc =>
      split at h
      · cases h
        rw [World.setCall_self] at hcall
        cases hcall
      next planned hplan =>
        cases h
        rw [World.setCall_self] at hcall
        split at hcall
        · cases hcall
        · cases hcall
          rw [conversation_of_planUpdate hplan]
          exact hc
  · cases h

/-- The reply target that was found is on the channel of the ingest. -/
theorem isOn_of_readTarget (hw : OnChannel w) {i : CallId} {tx : IngestTx} {conversationId : Id}
    (h : step w (.readTarget i) = some w') (hcall : w'.call i = .targeted tx conversationId) :
    IsOn w.db conversationId tx.request.channel.id := by
  simp only [step] at h
  split at h
  next tx' target hbefore =>
    split at h
    next m hm =>
      cases h
      rw [World.setCall_self] at hcall
      cases hcall
      obtain ⟨hmem, hkey⟩ := Table.find?_eq_some.mp hm
      have hon := hw.messages m hmem
      rwa [(Message.provider_mem_keys.mp hkey).1] at hon
    · cases h
      rw [World.setCall_self] at hcall
      cases hcall
  · cases h

theorem calls_step (hw : OnChannel w) (h : step w a = some w') {i : CallId}
    {conversationId channelId : Id}
    (hi : (w'.call i).writesTo? = some (conversationId, channelId)) :
    IsOn w'.db conversationId channelId := by
  refine isOn_kept h ?_
  by_cases hia : i = a.call
  · subst hia
    have hmoved := step_moved h
    generalize hc : w'.call a.call = c at hi hmoved
    cases hmoved with
    | @readOpen i found tx hcall hfound =>
        cases found with
        | nil => cases hi
        | cons c rest =>
            cases hi
            obtain ⟨hmem, hopen⟩ := hfound.selected c List.mem_cons_self
            exact ⟨c, Conversation.find?_of_mem hmem, (openFor_iff.mp hopen).1⟩
    | @readThread i found tx threadId hcall hfound =>
        cases found with
        | nil => cases hi
        | cons c rest =>
            cases hi
            obtain ⟨hmem, hin⟩ := hfound.selected c List.mem_cons_self
            exact ⟨c, Conversation.find?_of_mem hmem, (inThread_iff.mp hin).1⟩
    | @readTarget i tx target m hcall =>
        cases hi
        exact isOn_of_readTarget hw h hc
    | @readConversation i tx id hcall =>
        obtain ⟨c, hfound, hchannel⟩ := hw.calls i id tx.request.channel.id (by rw [hcall]; rfl)
        rw [hfound] at hi
        cases hi
        rw [← hchannel]
        exact isOn_of_find? hfound
    | @readReplyTarget i tx read hcall =>
        cases read with
        | none => cases hi
        | some c =>
            cases hi
            exact hw.calls i c.id tx.request.channel.id (by rw [hcall]; rfl)
    | @plansSend i actor channel c id messageId request now hcall hfound =>
        cases hi
        exact isOn_of_findConversation hfound
    | @plansUpdate i actor c id request member now ch hcall hplan =>
        cases hi
        exact isOn_of_findConversation (findConversation_of_update h hc)
    | _ => cases hi
  · rw [step_call_other h hia] at hi
    exact hw.calls i conversationId channelId hi

/-! ## What is stored -/

/-- A message that an ingest stores is on its channel. -/
theorem isOn_of_ingest (hw : OnChannel w) {i : CallId} {conversationId : Id} {createdAt : Date}
    {assignee : Option Id} {tx : IngestTx} {read : Option Conversation} {replyTo : Option Id}
    {result : IngestResult} {c : Conversation} {t : Conversations} {db : Db}
    (hcall : w.call i = .writing tx read replyTo)
    (hin : Ingested w.db db tx read replyTo
      (newConversation tx.request tx.sender conversationId createdAt assignee) result c t) :
    IsOn db c.id tx.request.channel.id := by
  have hon : ∃ r, t.find? c.id = some r ∧ r.providerAccountId = tx.request.channel.id := by
    cases hin.target with
    | read hrow => exact hw.calls i c.id tx.request.channel.id (by rw [hcall]; rfl)
    | created hinsert =>
        refine ⟨newConversation tx.request tx.sender conversationId createdAt assignee, ?_, rfl⟩
        rw [Table.find?_of_insert? hinsert, if_pos (Conversation.mem_keys.mpr rfl)]
  obtain ⟨r, hr, hchannel⟩ := hon
  refine ⟨_, by rw [hin.counted]; exact Table.find?_updateMany_of_some hr, ?_⟩
  split
  · exact hchannel
  · exact hchannel

theorem messages_step (hw : OnChannel w) (h : step w a = some w') {m : Message}
    (hm : m ∈ w'.db.messages.rows) : IsOn w'.db m.conversationId m.providerAccountId := by
  rcases step_cases h with ⟨hdb, _⟩ | ⟨e, _, hcommit⟩
  · rw [hdb] at hm
    exact isOn_kept h (hw.messages m hm)
  · generalize hdb : w'.db = db at hcommit
    cases hcommit with
    | @ingest i conversationId createdAt assignee tx read replyTo _ result c t hcall hin =>
        rw [hdb, (Table.insert?_eq_some.mp hin.inserted).2, List.mem_append] at hm
        rcases hm with hold | hnew
        · rw [← hdb]
          exact isOn_kept h (hw.messages m hold)
        · rw [List.mem_singleton.mp hnew]
          exact isOn_of_ingest hw hcall hin
    | @send i createdAt d _ hcall hsend =>
        rw [hdb, (Table.insert?_eq_some.mp (commitSend_eq_some hsend).1).2, List.mem_append] at hm
        rw [← hdb]
        rcases hm with hold | hnew
        · exact isOn_kept h (hw.messages m hold)
        · rw [List.mem_singleton.mp hnew]
          exact isOn_kept h (hw.calls i _ _ (by rw [hcall]; rfl))
    | @markRead i id _ hcall hmark =>
        rw [hdb, (commitMarkRead_eq_some hmark).2.1] at hm
        rw [← hdb]
        exact isOn_kept h (hw.messages m hm)
    | @update i ids createdAt ch _ hcall hupdate =>
        rw [hdb, rows_of_insertAll (commitUpdate_eq_some hupdate).2.1, List.mem_append] at hm
        rw [← hdb]
        rcases hm with hold | hnew
        · exact isOn_kept h (hw.messages m hold)
        · obtain ⟨entry, _, rfl⟩ := List.mem_map.mp hnew
          exact isOn_kept h (hw.calls i _ _ (by rw [hcall]; rfl))

theorem onChannel_step (hw : OnChannel w) (h : step w a = some w') : OnChannel w' where
  messages _ hm := messages_step hw h hm
  calls _ _ _ hi := calls_step hw h hi

end Step

/-- In every run every message is on the channel of its conversation. -/
theorem onChannel_of_run {w w' : World} {as : List Action} (hw : OnChannel w)
    (h : machine.run w as = some w') : OnChannel w' :=
  Machine.invariant (M := machine) (I := OnChannel) (fun _ _ _ hw hs => onChannel_step hw hs) hw h

end Vynor.Conversations
