import Vynor.Contracts.Surrogates
import Vynor.Conversations.Columns

/-!
# What the cuts of an ingest leave

An ingest cuts the name of the sender, and the subject and the thread id of a
conversation that it creates, after so many code units.  What it writes is well
formed exactly where none of these cuts halves a pair (`wellFormed_ingest_iff`).
-/

namespace Vynor.Conversations

open Lib (Table)

/-- The texts of all rows that an ingest may have cut are well formed. -/
structure Db.WellFormed (db : Db) : Prop where
  contacts : ∀ c ∈ db.contacts.rows, Vynor.WellFormed c.displayName
  identities : ∀ i ∈ db.identities.rows, Vynor.WellFormed i.displayName
  subjects : ∀ c ∈ db.conversations.rows, ∀ units ∈ c.subject, Vynor.WellFormed units
  threadIds : ∀ c ∈ db.conversations.rows, ∀ units ∈ c.externalThreadId, Vynor.WellFormed units
  previews : ∀ c ∈ db.conversations.rows, ∀ preview ∈ c.lastMessagePreview,
    Vynor.WellFormed (codeUnits preview)
  senderNames : ∀ m ∈ db.messages.rows, Vynor.WellFormed m.senderName

/-- The subject and the thread id of a new conversation are not cut within a
pair. -/
structure NewTextsWhole (message : InboundMessage) : Prop where
  subject : ∀ s ∈ truthy message.subject, ¬Halves 500 (codeUnits s)
  threadId : ∀ s ∈ truthy message.threadId, ¬Halves 512 (codeUnits s)

/-- The name of a sender as it comes. -/
def Sender.name (sender : Sender) : String := sender.displayName.getD sender.identifier

theorem wellFormed_storedName_iff (sender : Sender) :
    Vynor.WellFormed sender.storedName ↔ ¬Halves 255 (codeUnits sender.name) :=
  wellFormed_take_iff sender.name 255

theorem wellFormed_cut_iff (text : Option String) (n : Nat) :
    (∀ units ∈ text.map fun s => (codeUnits s).take n, Vynor.WellFormed units) ↔
      ∀ s ∈ text, ¬Halves n (codeUnits s) := by
  cases text with
  | none => exact ⟨fun _ _ h => (by cases h), fun _ _ h => (by cases h)⟩
  | some s =>
      constructor
      · intro h t ht
        cases ht
        exact (wellFormed_take_iff s n).mp (h _ rfl)
      · intro h units hunits
        cases hunits
        exact (wellFormed_take_iff s n).mpr (h s rfl)

section Ingest

variable {db db' : Db} {tx : IngestTx} {read : Option Conversation} {replyTo : Option Id}
  {conversationId : Id} {createdAt : Date} {assignee : Option Id} {result : IngestResult}

theorem wellFormed_writeSender {request : IngestRequest} {ref : SenderRef} {now : Date}
    (hdb : db.WellFormed) (hname : Vynor.WellFormed request.message.sender.storedName)
    (h : writeSender db request ref now = some db') : db'.WellFormed := by
  simp only [writeSender] at h
  split at h
  · split at h
    · next contacts identities hcontacts hidentities =>
        cases h
        exact { hdb with
          contacts := forall_mem_insert? hcontacts hdb.contacts hname
          identities := forall_mem_insert? hidentities hdb.identities hname }
    · cases h
  · next identity contact _ =>
      cases h
      refine { hdb with
        contacts := forall_mem_updateMany (keys_refreshed _ _ _) hdb.contacts fun c hc => ?_
        identities := forall_mem_updateMany (keys_seen _ _) hdb.identities fun _ _ => hname }
      simp only [refreshed]
      split
      · exact hname
      · exact hc

/-- The update of the conversation writes no cut text but the preview. -/
theorem wellFormed_counted {conversations : Conversations} {c : Conversation} {text : String}
    {P : Conversation → Prop} (hP : ∀ r, P r → P (counted c createdAt text r))
    (h : ∀ r ∈ conversations.rows, P r) :
    ∀ r ∈ (conversations.updateMany (fun r => r.id = c.id) (counted c createdAt text)
      (keys_counted c createdAt text)).rows, P r :=
  forall_mem_updateMany (keys_counted _ _ _) h fun r hr => hP r hr

theorem wellFormed_preview (preview : String) : Vynor.WellFormed (codeUnits preview) :=
  wellFormed_iff.mpr ⟨preview, rfl⟩

/-- Where no cut halves a pair, what an ingest writes is well formed. -/
theorem wellFormed_ingest (hdb : db.WellFormed)
    (h : ingestInTransaction db tx read replyTo
      (newConversation tx.request tx.sender conversationId createdAt assignee) =
        some (db', result))
    (hname : ¬Halves 255 (codeUnits tx.request.message.sender.name))
    (hnew : read = none → NewTextsWhole tx.request.message) : db'.WellFormed := by
  have hstored := (wellFormed_storedName_iff tx.request.message.sender).mpr hname
  simp only [ingestInTransaction, Option.bind_eq_bind, Option.bind_eq_some_iff] at h
  obtain ⟨db1, hsender, ⟨t, c⟩, hconversation, messages, hmessages, heq⟩ := h
  simp only [Option.some.injEq, Prod.mk.injEq] at heq
  obtain ⟨rfl, rfl⟩ := heq
  have hdb1 := wellFormed_writeSender hdb hstored hsender
  have ht : (∀ c ∈ t.rows, ∀ units ∈ c.subject, Vynor.WellFormed units) ∧
      ∀ c ∈ t.rows, ∀ units ∈ c.externalThreadId, Vynor.WellFormed units := by
    simp only [writeConversation] at hconversation
    split at hconversation
    · split at hconversation
      · cases hconversation
        exact ⟨hdb1.subjects, hdb1.threadIds⟩
      · cases hconversation
    · obtain ⟨t', hinsert, heq⟩ := Option.map_eq_some_iff.mp hconversation
      cases heq
      exact ⟨forall_mem_insert? hinsert hdb1.subjects
          ((wellFormed_cut_iff _ 500).mpr (hnew rfl).subject),
        forall_mem_insert? hinsert hdb1.threadIds
          ((wellFormed_cut_iff _ 512).mpr (hnew rfl).threadId)⟩
  exact {
    contacts := hdb1.contacts
    identities := hdb1.identities
    subjects := wellFormed_counted (fun _ hr => hr) ht.1
    threadIds := wellFormed_counted (fun _ hr => hr) ht.2
    previews := fun _ _ preview _ => wellFormed_preview preview
    senderNames := forall_mem_insert? hmessages hdb1.senderNames hstored }

/-- A new conversation of an ingest, with the texts it was created with. -/
theorem exists_created
    (h : ingestInTransaction db tx none replyTo
      (newConversation tx.request tx.sender conversationId createdAt assignee) =
        some (db', result)) :
    ∃ c ∈ db'.conversations.rows,
      c.subject = (truthy tx.request.message.subject).map (fun s => (codeUnits s).take 500) ∧
      c.externalThreadId =
        (truthy tx.request.message.threadId).map fun s => (codeUnits s).take 512 := by
  obtain ⟨c, t, htarget, _, hcounted, _⟩ := ingested_of_eq_some h
  cases htarget with
  | created hinsert =>
      have hmem : newConversation tx.request tx.sender conversationId createdAt assignee ∈
          t.rows := by
        rw [(Table.insert?_eq_some.mp hinsert).2]
        exact List.mem_append_right _ (List.mem_singleton_self _)
      rw [hcounted]
      refine ⟨_, Table.mem_updateMany.mpr ⟨_, hmem, rfl⟩, ?_⟩
      rw [if_pos (decide_eq_true rfl)]
      exact ⟨rfl, rfl⟩

/-- What an ingest writes is well formed exactly where it does not halve a pair
in the name of the sender or, where it creates the conversation, in its subject
or its thread id. -/
theorem wellFormed_ingest_iff (hdb : db.WellFormed)
    (h : ingestInTransaction db tx read replyTo
      (newConversation tx.request tx.sender conversationId createdAt assignee) =
        some (db', result)) :
    db'.WellFormed ↔ ¬Halves 255 (codeUnits tx.request.message.sender.name) ∧
      (read = none → NewTextsWhole tx.request.message) := by
  constructor
  · intro hdb'
    constructor
    · obtain ⟨c, t, _, hinserted, _, _⟩ := ingested_of_eq_some h
      have hmem : newMessage tx c.id replyTo ∈ db'.messages.rows := by
        rw [(Table.insert?_eq_some.mp hinserted).2]
        exact List.mem_append_right _ (List.mem_singleton_self _)
      exact (wellFormed_storedName_iff _).mp (hdb'.senderNames _ hmem)
    · rintro rfl
      obtain ⟨c, hc, hsubject, hthread⟩ := exists_created h
      have hsubjects := hdb'.subjects c hc
      have hthreads := hdb'.threadIds c hc
      rw [hsubject] at hsubjects
      rw [hthread] at hthreads
      exact ⟨(wellFormed_cut_iff _ 500).mp hsubjects, (wellFormed_cut_iff _ 512).mp hthreads⟩
  · rintro ⟨hname, hnew⟩
    exact wellFormed_ingest hdb h hname hnew

end Ingest

end Vynor.Conversations
