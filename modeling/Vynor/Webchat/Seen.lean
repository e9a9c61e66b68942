import Vynor.Webchat.Polling

/-!
# What the widget misses

The cursor is a time, and rows come to stand before it in two ways: a message
commits with an earlier time than one that was given, or a full page ends among
rows of one time.  And a reply that is given while it is still `PENDING` is not
given again when it is sent, so nothing marks it as delivered.

A run is *orderly* when none of this happens (`Orderly`).  Then the widget has
been given every message up to its cursor (`Covered`), and no reply it has been
given is left `SENT` (`Settled`).  `missesNothing_of_run` follows.
-/

namespace Vynor.Webchat

open Lib
open Conversations (Db)
open Delivery (Directory deliveredIds markFetched markSent visible)

/-! ## The claim of the widget -/

/-- The reply is `DELIVERED`. -/
def IsDelivered (db : Db) (id : Id) : Prop :=
  ∃ m, db.messages.find? (.id id) = some m ∧ m.status = .delivered

/-- An answer that misses nothing: each message of the visitor was given by it or
by an earlier one, and each reply that was sent is now delivered. -/
structure Complete (db : Db) (answer : Answer) : Prop where
  given : ∀ m ∈ answer.seen, m.id ∈ answer.ids ∨ m.id ∈ answer.before
  delivered : ∀ m ∈ answer.seen, m.direction = .outbound → m.status = .sent →
    IsDelivered db m.id

/-- Every answer with less than a full page misses nothing. -/
def MissesNothing (w : World) : Prop :=
  ∀ p answer, w.poll p = .answered answer → answer.rows.length < PAGE_SIZE →
    Complete w.db answer

/-! ## Orderly runs -/

/-- A time the widget or a poll under way asks with, or would. -/
def World.InUse (w : World) (t : Date) : Prop :=
  w.lastSeen = some t ∨ ∃ p, (w.poll p).cursor? = some t

/-- A message that was given, or is in a page on its way. -/
def World.Returned (w : World) (id : Id) : Prop :=
  id ∈ w.given ∨ ∃ p answer, (w.poll p).answer? = some answer ∧ id ∈ answer.ids

/-- A message of the visitor commits with a time after all those in use, a reply
is marked as sent before a page has it, and a full page does not end among rows
of one time. -/
def Orderly (v : Visitor) (w : World) (a : Action) (w' : World) : Prop :=
  match a with
  | .conversations _ =>
      ∀ m ∈ v.messages w'.db, m ∉ w.db.messages.rows → ∀ t, w.InUse t → t < m.createdAt
  | .markSent messageId _ _ _ =>
      ∀ m, w.db.messages.find? (.id messageId) = some m → m.status = .pending →
        ¬ w.Returned messageId
  | .fetch _ rows =>
      rows.length = PAGE_SIZE → ∀ last, rows.getLast? = some last →
        ∀ m ∈ v.messages w.db, m.createdAt = last.createdAt → m ∈ rows
  | _ => True

/-! ## What a step does to the visitor's messages -/

/-- Every public message is in a conversation that is there. -/
def Homed (db : Db) : Prop :=
  ∀ m ∈ db.messages.rows, m.isPrivate = false →
    ∃ c, db.conversations.find? m.conversationId = some c

/-- What an orderly step does to the visitor's messages: the old ones keep their
id and time, the new ones are later than the times in use, and a status moves
from `PENDING` to `SENT` while no page has it, or from `SENT` to `DELIVERED`. -/
structure Moves (v : Visitor) (w : World) (db' : Db) : Prop where
  homed : Homed db'
  identity : ∀ identityId, v.identityId w.db = some identityId → v.identityId db' = some identityId
  traced : ∀ identityId, v.identityId w.db = some identityId → ∀ m' ∈ v.messages db',
    (∃ m ∈ v.messages w.db, m.id = m'.id ∧ m.createdAt = m'.createdAt) ∨
      ∀ t, w.InUse t → t < m'.createdAt
  row : ∀ id m, w.db.messages.find? (.id id) = some m →
    ∃ m', db'.messages.find? (.id id) = some m' ∧ m'.direction = m.direction ∧
      (m'.status = m.status ∨ m.status = .pending ∧ m'.status = .sent ∧ ¬ w.Returned id ∨
        m.status = .sent ∧ m'.status = .delivered)

theorem moves_refl {v : Visitor} {w : World} (h : Homed w.db) : Moves v w w.db where
  homed := h
  identity _ hidentity := hidentity
  traced _ _ m hm := Or.inl ⟨m, hm, rfl, rfl⟩
  row _ m hm := ⟨m, hm, rfl, Or.inl rfl⟩

section Conversations

variable {v : Visitor} {w : World} {base : Conversations.World} {a : Conversations.Action}

theorem identityId_kept (h : Conversations.step w.base a = some base) {identityId : Id}
    (hidentity : v.identityId w.db = some identityId) : v.identityId base.db = some identityId := by
  obtain ⟨r, hr, rfl⟩ := Option.map_eq_some_iff.mp hidentity
  obtain ⟨r', hr', hkeys, _⟩ := Conversations.identity_kept h hr
  have hid := (Conversations.ContactIdentity.eq_of_keys hkeys).1
  simp [Visitor.identityId, directory, hr', hid]

/-- A conversation keeps its identity. -/
theorem contactIdentityId_kept (h : Conversations.step w.base a = some base) {id : Id}
    {c : Conversation} (hc : w.db.conversations.find? id = some c) :
    ∃ c', base.db.conversations.find? id = some c' ∧
      c'.contactIdentityId = c.contactIdentityId := by
  obtain ⟨c', hc', hchange⟩ := Conversations.conversation_kept h hc
  exact ⟨c', hc', (Conversations.sameThread_of_change hchange).identity⟩

theorem commitSend_of_step {i : Conversations.CallId} {createdAt : Date} {d : Conversations.Draft}
    (h : Conversations.step w.base (.commitSend i createdAt) = some base)
    (hcall : w.base.call i = .sending d) :
    Conversations.commitSend w.db d createdAt = some base.db := by
  simp only [Conversations.step, hcall] at h
  obtain ⟨db, hdb, rfl⟩ := Option.map_eq_some_iff.mp h
  exact hdb

theorem homed_conversations (hw : Homed w.db) (h : Conversations.step w.base a = some base) :
    Homed base.db := by
  intro m hm hpublic
  have hold : m ∈ w.db.messages.rows →
      ∃ c, base.db.conversations.find? m.conversationId = some c := by
    intro hmem
    obtain ⟨c, hc⟩ := hw m hmem hpublic
    obtain ⟨c', hc', _⟩ := Conversations.conversation_kept h hc
    exact ⟨c', hc'⟩
  rcases Conversations.step_cases h with ⟨hdb, _⟩ | ⟨e, _, hcommit⟩
  · rw [hdb] at hm
    exact hold hm
  · obtain ⟨added, hrows, hadded⟩ := hcommit.messages
    rw [hrows, List.mem_append] at hm
    rcases hm with hmem | hnew
    · exact hold hmem
    · cases hadded with
      | ingest hcall =>
          rw [List.mem_singleton.mp hnew]
          exact hcommit.exists_of_ingested
      | @send i createdAt d hcall =>
          rw [List.mem_singleton.mp hnew] at hpublic ⊢
          have hsend := commitSend_of_step h hcall
          rcases (Conversations.commitSend_eq_some hsend).2 with ⟨hprivate, _⟩ | ⟨_, hsome, _⟩
          · exact absurd (hprivate.symm.trans hpublic) (by decide)
          · obtain ⟨c, hc⟩ := Option.isSome_iff_exists.mp hsome
            obtain ⟨c', hc', _⟩ := Conversations.conversation_kept h hc
            exact ⟨c', hc'⟩
      | markRead => cases hnew
      | update =>
          obtain ⟨entry, _, rfl⟩ := List.mem_map.mp hnew
          cases hpublic

/-- A commit of an ingest or an agent. -/
theorem moves_conversations (hw : Homed w.db) (h : Conversations.step w.base a = some base)
    (horderly : ∀ m ∈ v.messages base.db, m ∉ w.db.messages.rows → ∀ t, w.InUse t →
      t < m.createdAt) : Moves v w base.db where
  homed := homed_conversations hw h
  identity _ hidentity := identityId_kept h hidentity
  traced identityId hidentity m' hm' := by
    by_cases hmem : m' ∈ w.db.messages.rows
    · refine Or.inl ⟨m', ?_, rfl, rfl⟩
      obtain ⟨identityId', hidentity', _, hpublic, c', hc', hown⟩ := Visitor.mem_messages.mp hm'
      rw [identityId_kept h hidentity] at hidentity'
      cases hidentity'
      -- its conversation was there, with the same identity
      obtain ⟨c, hc⟩ := hw m' hmem hpublic
      obtain ⟨c'', hc'', hsame⟩ := contactIdentityId_kept h hc
      rw [hc'] at hc''
      cases hc''
      exact Visitor.mem_messages.mpr ⟨identityId, hidentity, hmem, hpublic, c, hc,
        hsame.symm.trans hown⟩
    · exact Or.inr (horderly m' hm' hmem)
  row _ m hm := ⟨m, Conversations.message_kept h hm, rfl, Or.inl rfl⟩

end Conversations

/-! ## What the statements on a status do -/

/-- What a write of a status leaves of a message. -/
structure SameMessage (m m' : Message) : Prop where
  id : m'.id = m.id
  conversationId : m'.conversationId = m.conversationId
  isPrivate : m'.isPrivate = m.isPrivate
  createdAt : m'.createdAt = m.createdAt
  direction : m'.direction = m.direction

theorem moves_rewrite {v : Visitor} {w : World} {t : Messages} {f : Message → Message}
    (hw : Homed w.db) (hrows : t.rows = w.db.messages.rows.map f)
    (hf : ∀ m, SameMessage m (f m))
    (hstatus : ∀ m ∈ w.db.messages.rows, (f m).status = m.status ∨
      m.status = .pending ∧ (f m).status = .sent ∧ ¬ w.Returned m.id ∨
        m.status = .sent ∧ (f m).status = .delivered) :
    Moves v w (w.setMessages t).db where
  homed := by
    intro m' hm' hpublic
    change m' ∈ t.rows at hm'
    rw [hrows] at hm'
    obtain ⟨m, hm, rfl⟩ := List.mem_map.mp hm'
    rw [(hf m).conversationId]
    exact hw m hm ((hf m).isPrivate.symm.trans hpublic)
  identity _ hidentity := hidentity
  traced identityId hidentity m' hm' := by
    obtain ⟨identityId', hidentity', hmem, hpublic, c, hc, hown⟩ := Visitor.mem_messages.mp hm'
    change m' ∈ t.rows at hmem
    rw [hrows] at hmem
    obtain ⟨m, hm, rfl⟩ := List.mem_map.mp hmem
    refine Or.inl ⟨m, ?_, (hf m).id.symm, (hf m).createdAt.symm⟩
    exact Visitor.mem_messages.mpr ⟨identityId', hidentity', hm,
      (hf m).isPrivate.symm.trans hpublic, c, (hf m).conversationId ▸ hc, hown⟩
  row id m hm := by
    have hmem := (Table.find?_eq_some.mp hm).1
    have hid : (f m).id = id := (hf m).id.trans (Message.id_of_find? hm)
    have hnew : t.find? (.id (f m).id) = some (f m) :=
      Message.find?_of_mem (hrows ▸ List.mem_map_of_mem hmem)
    refine ⟨f m, hid ▸ hnew, (hf m).direction, ?_⟩
    rw [← Message.id_of_find? hm]
    exact hstatus m hmem

theorem moves_markSent {v : Visitor} {w : World} {messageId : Id}
    {providerMessageId : Option String} {sentAt now : Date} {t : Messages} (hw : Homed w.db)
    (h : markSent w.db.messages messageId providerMessageId sentAt now = some t)
    (horderly : ∀ m, w.db.messages.find? (.id messageId) = some m → m.status = .pending →
      ¬ w.Returned messageId) : Moves v w (w.setMessages t).db := by
  refine moves_rewrite hw (Table.rows_of_updateMany? h) (fun m => ?_) (fun m hm => ?_)
  · split <;> exact ⟨rfl, rfl, rfl, rfl, rfl⟩
  · split
    · next hselected =>
        simp only [Bool.and_eq_true, decide_eq_true_eq] at hselected
        obtain ⟨rfl, hpending⟩ := hselected
        exact Or.inr (Or.inl ⟨hpending, rfl, horderly m (Message.find?_of_mem hm) hpending⟩)
    · exact Or.inl rfl

theorem moves_markFetched {v : Visitor} {w : World} (hw : Homed w.db) (ids : List Id)
    (now : Date) : Moves v w (w.setMessages (markFetched w.db.messages ids now)).db := by
  refine moves_rewrite hw rfl (fun m => ?_) (fun m _ => ?_)
  · split <;> exact ⟨rfl, rfl, rfl, rfl, rfl⟩
  · split
    · next hselected =>
        simp only [Bool.and_eq_true, decide_eq_true_eq] at hselected
        exact Or.inr (Or.inr ⟨hselected.2, rfl⟩)
    · exact Or.inl rfl

/-! ## The invariant -/

/-- The visitor is known, and the widget has been given its messages up to this
time, apart from those of a page. -/
def Covered (v : Visitor) (w : World) (page : List Id) (t : Date) : Prop :=
  (∃ identityId, v.identityId w.db = some identityId) ∧
    ∀ m ∈ v.messages w.db, m.createdAt ≤ t → m.id ∈ w.given ∨ m.id ∈ page

/-- The message is there, and it is no reply that waits to be marked. -/
def Settled (db : Db) (id : Id) : Prop :=
  ∃ m, db.messages.find? (.id id) = some m ∧ (m.direction = .outbound → m.status ≠ .sent)

/-- The reply waits to be marked, or has been. -/
def Deliverable (db : Db) (id : Id) : Prop :=
  ∃ m, db.messages.find? (.id id) = some m ∧ (m.status = .sent ∨ m.status = .delivered)

/-- What is known of a page that was read. -/
structure PageOk (v : Visitor) (w : World) (answer : Answer) : Prop where
  covered : ∀ t, answer.last? = some t → Covered v w answer.ids t
  given : answer.rows.length < PAGE_SIZE → ∀ m ∈ answer.seen,
    m.id ∈ answer.ids ∨ m.id ∈ answer.before

/-- What is known of a poll where it stands. -/
def PollOk (v : Visitor) (w : World) : Poll → Prop
  | .started after => ∀ t, after = some t → Covered v w [] t
  | .fetching identityId since =>
      v.identityId w.db = some identityId ∧ ∀ t, since = some t → Covered v w [] t
  | .delivering answer =>
      PageOk v w answer ∧
        (∀ id ∈ answer.ids, id ∈ deliveredIds answer.rows ∨ Settled w.db id) ∧
        (∀ id ∈ deliveredIds answer.rows, Deliverable w.db id) ∧
        (answer.rows.length < PAGE_SIZE → ∀ m ∈ answer.seen, m.direction = .outbound →
          m.status = .sent → m.id ∈ deliveredIds answer.rows)
  | .answered answer =>
      PageOk v w answer ∧ (∀ id ∈ answer.ids, Settled w.db id) ∧
        (answer.rows.length < PAGE_SIZE → Complete w.db answer)
  | _ => True

/-- The invariant of orderly runs. -/
structure Watched (v : Visitor) (w : World) : Prop where
  homed : Homed w.db
  lastSeen : ∀ t, w.lastSeen = some t → Covered v w [] t
  given : ∀ id ∈ w.given, Settled w.db id
  polls : ∀ p, PollOk v w (w.poll p)

theorem watched_init (v : Visitor) : Watched v World.init where
  homed := fun m hm => by cases hm
  lastSeen := fun t h => by cases h
  given := fun id h => by cases h
  polls := fun p => trivial

section Kept

variable {v : Visitor} {w w' : World}

theorem Covered.mono {page page' : List Id} {t : Date} (h : Covered v w page t)
    (hmoves : Moves v w w'.db) (huse : w.InUse t)
    (hgiven : ∀ id ∈ w.given, id ∈ w'.given ∨ id ∈ page')
    (hpage : ∀ id ∈ page, id ∈ w'.given ∨ id ∈ page') : Covered v w' page' t := by
  obtain ⟨⟨identityId, hidentity⟩, hcovered⟩ := h
  refine ⟨⟨identityId, hmoves.identity identityId hidentity⟩, fun m' hm' hle => ?_⟩
  rcases hmoves.traced identityId hidentity m' hm' with ⟨m, hm, hid, hcreated⟩ | hnew
  · rw [← hid]
    rcases hcovered m hm (hcreated ▸ hle) with hin | hin
    · exact hgiven m.id hin
    · exact hpage m.id hin
  · exact absurd (hnew t huse) (Int.not_lt.mpr hle)

/-- A message a page has does not become a reply that waits. -/
theorem Settled.mono {id : Id} (h : Settled w.db id) (hmoves : Moves v w w'.db)
    (hreturned : w.Returned id) : Settled w'.db id := by
  obtain ⟨m, hm, hsettled⟩ := h
  obtain ⟨m', hm', hdirection, hstatus⟩ := hmoves.row id m hm
  refine ⟨m', hm', fun houtbound => ?_⟩
  rcases hstatus with hsame | ⟨_, _, hnot⟩ | ⟨_, hdelivered⟩
  · rw [hsame]
    exact hsettled (hdirection ▸ houtbound)
  · exact absurd hreturned hnot
  · rw [hdelivered]
    exact fun h => by cases h

theorem Deliverable.mono {id : Id} (h : Deliverable w.db id) (hmoves : Moves v w w'.db) :
    Deliverable w'.db id := by
  obtain ⟨m, hm, hdeliverable⟩ := h
  obtain ⟨m', hm', _, hstatus⟩ := hmoves.row id m hm
  refine ⟨m', hm', ?_⟩
  rcases hstatus with hsame | ⟨_, hsent, _⟩ | ⟨_, hdelivered⟩
  · rw [hsame]
    exact hdeliverable
  · exact Or.inl hsent
  · exact Or.inr hdelivered

theorem IsDelivered.mono {id : Id} (h : IsDelivered w.db id) (hmoves : Moves v w w'.db) :
    IsDelivered w'.db id := by
  obtain ⟨m, hm, hdelivered⟩ := h
  obtain ⟨m', hm', _, hstatus⟩ := hmoves.row id m hm
  refine ⟨m', hm', ?_⟩
  rcases hstatus with hsame | ⟨hpending, _, _⟩ | ⟨hsent, _⟩
  · exact hsame.trans hdelivered
  · exact absurd (hpending.symm.trans hdelivered) (by decide)
  · exact absurd (hsent.symm.trans hdelivered) (by decide)

theorem PageOk.mono {answer : Answer} {p : PollId} (h : PageOk v w answer)
    (hmoves : Moves v w w'.db) (hgiven : ∀ id ∈ w.given, id ∈ w'.given)
    (hcursor : (w.poll p).cursor? = answer.last?) : PageOk v w' answer where
  covered t ht := (h.covered t ht).mono hmoves (Or.inr ⟨p, hcursor.trans ht⟩)
    (fun id hid => Or.inl (hgiven id hid)) (fun _ hid => Or.inr hid)
  given := h.given

/-- What is known of a poll outlives an orderly step of something else. -/
theorem PollOk.mono {p : PollId} (h : PollOk v w (w.poll p)) (hmoves : Moves v w w'.db)
    (hgiven : ∀ id ∈ w.given, id ∈ w'.given) : PollOk v w' (w.poll p) := by
  have hcovered : ∀ t, (w.poll p).cursor? = some t → Covered v w [] t → Covered v w' [] t :=
    fun t ht hc => hc.mono hmoves (Or.inr ⟨p, ht⟩) (fun id hid => Or.inl (hgiven id hid))
      (fun _ hid => Or.inr hid)
  cases hpoll : w.poll p with
  | started after =>
      rw [hpoll] at h hcovered
      exact fun t ht => hcovered t ht (h t ht)
  | fetching identityId since =>
      rw [hpoll] at h hcovered
      exact ⟨hmoves.identity identityId h.1, fun t ht => hcovered t ht (h.2 t ht)⟩
  | delivering answer =>
      rw [hpoll] at h
      obtain ⟨hpage, hids, hdeliverable, hsent⟩ := h
      have hp : (w.poll p).answer? = some answer := by rw [hpoll]; rfl
      refine ⟨hpage.mono hmoves hgiven (by rw [hpoll]; rfl), fun id hid => ?_,
        fun id hid => (hdeliverable id hid).mono hmoves, hsent⟩
      rcases hids id hid with hmarked | hsettled
      · exact Or.inl hmarked
      · exact Or.inr (hsettled.mono hmoves (Or.inr ⟨p, answer, hp, hid⟩))
  | answered answer =>
      rw [hpoll] at h
      obtain ⟨hpage, hids, hcomplete⟩ := h
      have hp : (w.poll p).answer? = some answer := by rw [hpoll]; rfl
      refine ⟨hpage.mono hmoves hgiven (by rw [hpoll]; rfl),
        fun id hid => (hids id hid).mono hmoves (Or.inr ⟨p, answer, hp, hid⟩), fun hsize => ?_⟩
      obtain ⟨hfound, hdelivered⟩ := hcomplete hsize
      exact ⟨hfound, fun m hm ho hs => (hdelivered m hm ho hs).mono hmoves⟩
  | idle => trivial
  | closed => trivial

/-- A step that leaves the widget alone and moves one poll at most. -/
theorem Watched.move (h : Watched v w) (hmoves : Moves v w w'.db)
    (hlastSeen : w'.lastSeen = w.lastSeen) (hgiven : w'.given = w.given)
    (hpolls : ∀ p, w'.poll p = w.poll p ∨ PollOk v w' (w'.poll p)) : Watched v w' where
  homed := hmoves.homed
  lastSeen t ht := by
    rw [hlastSeen] at ht
    exact (h.lastSeen t ht).mono hmoves (Or.inl ht) (fun id hid => Or.inl (hgiven ▸ hid))
      (fun _ hid => Or.inr hid)
  given id hid := by
    rw [hgiven] at hid
    exact (h.given id hid).mono hmoves (Or.inl hid)
  polls p := by
    rcases hpolls p with hsame | hok
    · rw [hsame]
      exact (h.polls p).mono hmoves fun id hid => hgiven ▸ hid
    · exact hok

end Kept

/-! ## A page -/

section Page

variable {v : Visitor} {w : World} {identityId : Id} {since : Option Date} {rows : List Message}

theorem mem_deliveredIds {id : Id} : id ∈ deliveredIds rows ↔
    ∃ m ∈ rows, (m.direction = .outbound ∧ m.status = .sent) ∧ m.id = id := by
  simp [deliveredIds, and_assoc]

/-- A message of the visitor was given, is on the page, or is left over by a full
page that ends no later. -/
theorem page_cases (hok : PollOk v w (.fetching identityId since))
    (hselects : w.db.messages.Selects (visible (directory w.db) identityId since)
      (fun a b => a.createdAt ≤ b.createdAt) PAGE_SIZE rows) {m : Message}
    (hm : m ∈ v.messages w.db) :
    m.id ∈ w.given ∨ m ∈ rows ∨
      rows.length = PAGE_SIZE ∧ ∀ a ∈ rows, a.createdAt ≤ m.createdAt := by
  obtain ⟨hidentity, hcovered⟩ := hok
  obtain ⟨_, _, hmem, _⟩ := Visitor.mem_messages.mp hm
  by_cases hlater : ∀ t, since = some t → t < m.createdAt
  · by_cases hpage : m ∈ rows
    · exact Or.inr (Or.inl hpage)
    · have hvisible := (Visitor.visible_iff hidentity hmem).mpr ⟨hm, hlater⟩
      obtain ⟨hfull, hle⟩ := hselects.passedOver m hmem hvisible hpage
      exact Or.inr (Or.inr ⟨hfull, fun a ha => of_decide_eq_true (hle a ha)⟩)
  · simp only [not_forall, Int.not_lt] at hlater
    obtain ⟨t, ht, hle⟩ := hlater
    rcases (hcovered t ht).2 m hm hle with hgiven | hnil
    · exact Or.inl hgiven
    · cases hnil

theorem pageOk_fetch (hok : PollOk v w (.fetching identityId since))
    (hselects : w.db.messages.Selects (visible (directory w.db) identityId since)
      (fun a b => a.createdAt ≤ b.createdAt) PAGE_SIZE rows)
    (horderly : rows.length = PAGE_SIZE → ∀ last, rows.getLast? = some last →
      ∀ m ∈ v.messages w.db, m.createdAt = last.createdAt → m ∈ rows) :
    PageOk v w ⟨rows, v.messages w.db, w.given⟩ where
  covered t ht := by
    obtain ⟨last, hlast, rfl⟩ := Option.map_eq_some_iff.mp ht
    refine ⟨⟨identityId, hok.1⟩, fun m hm hle => ?_⟩
    rcases page_cases hok hselects hm with hgiven | hpage | ⟨hfull, hbefore⟩
    · exact Or.inl hgiven
    · exact Or.inr (List.mem_map_of_mem hpage)
    · have hsame : m.createdAt = last.createdAt :=
        Int.le_antisymm hle (hbefore last (List.mem_of_getLast? hlast))
      exact Or.inr (List.mem_map_of_mem (horderly hfull last hlast m hm hsame))
  given hsize m hm := by
    rcases page_cases hok hselects hm with hgiven | hpage | ⟨hfull, _⟩
    · exact Or.inr hgiven
    · exact Or.inl (List.mem_map_of_mem hpage)
    · exact absurd hfull (Nat.ne_of_lt hsize)

/-- A row of a page is marked, or it is settled. -/
theorem marked_or_settled (hrows : ∀ m ∈ rows, m ∈ w.db.messages.rows) {id : Id}
    (hid : id ∈ rows.map Message.id) : id ∈ deliveredIds rows ∨ Settled w.db id := by
  obtain ⟨m, hm, rfl⟩ := List.mem_map.mp hid
  by_cases hsent : m.direction = .outbound ∧ m.status = .sent
  · exact Or.inl (mem_deliveredIds.mpr ⟨m, hm, hsent, rfl⟩)
  · exact Or.inr ⟨m, Message.find?_of_mem (hrows m hm), fun ho hs => hsent ⟨ho, hs⟩⟩

/-- A sent reply of the visitor is on the page, if it was given at all. -/
theorem marked_of_sent (hgiven : ∀ id ∈ w.given, Settled w.db id)
    (hrows : ∀ m ∈ rows, m ∈ w.db.messages.rows) {m : Message} (hm : m ∈ v.messages w.db)
    (hfound : m.id ∈ rows.map Message.id ∨ m.id ∈ w.given) (ho : m.direction = .outbound)
    (hs : m.status = .sent) : m.id ∈ deliveredIds rows := by
  obtain ⟨_, _, hmem, _⟩ := Visitor.mem_messages.mp hm
  have hfind := Message.find?_of_mem hmem
  rcases hfound with hpage | hbefore
  · obtain ⟨r, hr, hid⟩ := List.mem_map.mp hpage
    have hfind' := Message.find?_of_mem (hrows r hr)
    rw [hid, hfind] at hfind'
    cases hfind'
    exact mem_deliveredIds.mpr ⟨m, hr, ⟨ho, hs⟩, rfl⟩
  · obtain ⟨m', hm', hsettled⟩ := hgiven m.id hbefore
    rw [hfind] at hm'
    cases hm'
    exact absurd hs (hsettled ho)

theorem pollOk_fetch (h : Watched v w) (hok : PollOk v w (.fetching identityId since))
    (hselects : w.db.messages.Selects (visible (directory w.db) identityId since)
      (fun a b => a.createdAt ≤ b.createdAt) PAGE_SIZE rows)
    (horderly : rows.length = PAGE_SIZE → ∀ last, rows.getLast? = some last →
      ∀ m ∈ v.messages w.db, m.createdAt = last.createdAt → m ∈ rows) :
    PollOk v w (afterFetch ⟨rows, v.messages w.db, w.given⟩) := by
  have hpage := pageOk_fetch hok hselects horderly
  have hrows : ∀ m ∈ rows, m ∈ w.db.messages.rows := fun m hm => (hselects.selected m hm).1
  have hsent : rows.length < PAGE_SIZE → ∀ m ∈ v.messages w.db, m.direction = .outbound →
      m.status = .sent → m.id ∈ deliveredIds rows := fun hsize m hm =>
    marked_of_sent h.given hrows hm (hpage.given hsize m hm)
  unfold afterFetch
  split
  · next hnone =>
      replace hnone : deliveredIds rows = [] := hnone
      refine ⟨hpage, fun id hid => ?_, fun hsize => ⟨hpage.given hsize, fun m hm ho hs => ?_⟩⟩
      · rcases marked_or_settled hrows hid with hmarked | hsettled
        · rw [hnone] at hmarked
          cases hmarked
        · exact hsettled
      · have hmarked := hsent hsize m hm ho hs
        rw [hnone] at hmarked
        cases hmarked
  · refine ⟨hpage, fun id hid => marked_or_settled hrows hid, fun id hid => ?_, hsent⟩
    obtain ⟨m, hm, ⟨_, hs⟩, rfl⟩ := mem_deliveredIds.mp hid
    exact ⟨m, Message.find?_of_mem (hrows m hm), Or.inl hs⟩

/-- A reply that waits is delivered by the update of its page. -/
theorem delivered_of_markFetched {ids : List Id} {id : Id} (now : Date) (hid : id ∈ ids)
    (h : Deliverable w.db id) :
    IsDelivered (w.setMessages (markFetched w.db.messages ids now)).db id := by
  obtain ⟨m, hm, hstatus⟩ := h
  have hfind := Delivery.find?_markFetched ids now hm
  refine ⟨_, hfind, ?_⟩
  rw [Message.id_of_find? hm]
  split
  · rfl
  · next hnot =>
      rcases hstatus with hsent | hdelivered
      · simp [hid, hsent] at hnot
      · exact hdelivered

theorem IsDelivered.settled {db : Db} {id : Id} (h : IsDelivered db id) : Settled db id := by
  obtain ⟨m, hm, hdelivered⟩ := h
  refine ⟨m, hm, fun _ hsent => ?_⟩
  rw [hdelivered] at hsent
  cases hsent

end Page

/-! ## Orderly runs miss nothing -/

section Step

variable {v : Visitor} {w : World}

theorem setPoll_self (w : World) (p : PollId) (s : Poll) : (w.setPoll p s).poll p = s := by
  simp [World.setPoll]

theorem setPoll_of_ne (w : World) {p q : PollId} (s : Poll) (hq : q ≠ p) :
    (w.setPoll p s).poll q = w.poll q := by
  simp [World.setPoll, hq]

/-- What is known of a poll does not depend on the other polls. -/
theorem pollOk_setPoll {p : PollId} {s s' : Poll} :
    PollOk v (w.setPoll p s) s' ↔ PollOk v w s' := by
  cases s' with
  | delivering answer =>
      exact and_congr ⟨fun h => ⟨h.covered, h.given⟩, fun h => ⟨h.covered, h.given⟩⟩ Iff.rfl
  | answered answer =>
      exact and_congr ⟨fun h => ⟨h.covered, h.given⟩, fun h => ⟨h.covered, h.given⟩⟩ Iff.rfl
  | _ => exact Iff.rfl

/-- A step that moves one poll, and no message. -/
theorem Watched.setPoll (h : Watched v w) (p : PollId) {s : Poll} (hok : PollOk v w s) :
    Watched v (w.setPoll p s) := by
  refine h.move (moves_refl h.homed) rfl rfl fun q => ?_
  by_cases hq : q = p
  · rw [hq, setPoll_self]
    exact Or.inr (pollOk_setPoll.mpr hok)
  · exact Or.inl (setPoll_of_ne w s hq)

/-- Without an identity there are no messages. -/
theorem pollOk_afterIdentity {after : Option Date} (h : PollOk v w (.started after)) :
    PollOk v w (afterIdentity v w after) := by
  unfold afterIdentity
  split
  · next hnone =>
      have hempty : v.messages w.db = [] := by unfold Visitor.messages; rw [hnone]
      rw [hempty]
      have hpage : PageOk v w ⟨[], [], w.given⟩ :=
        ⟨fun t ht => (by cases ht), fun _ m hm => (by cases hm)⟩
      exact ⟨hpage, fun id hid => (by cases hid),
        fun _ => ⟨fun m hm => (by cases hm), fun m hm => (by cases hm)⟩⟩
  · next identityId hidentity => exact ⟨hidentity, h⟩

/-- The update of a page keeps the rule, and settles the page. -/
theorem watched_deliver (h : Watched v w) {p : PollId} {answer : Answer} (now : Date)
    (hp : w.poll p = .delivering answer) :
    Watched v ((w.setMessages (markFetched w.db.messages (deliveredIds answer.rows) now)).setPoll p
      (.answered answer)) := by
  have hmoves := moves_markFetched (v := v) h.homed (deliveredIds answer.rows) now
  have hkept : Watched v (w.setMessages (markFetched w.db.messages (deliveredIds answer.rows) now)) :=
    h.move hmoves rfl rfl fun _ => Or.inl rfl
  refine hkept.setPoll p ?_
  have hold := h.polls p
  have hnew := hkept.polls p
  change PollOk v _ (w.poll p) at hnew
  rw [hp] at hold hnew
  obtain ⟨_, hids, hdeliverable, hsent⟩ := hold
  obtain ⟨hpage, hids', _⟩ := hnew
  have hmarked : ∀ id ∈ deliveredIds answer.rows, IsDelivered (w.setMessages
      (markFetched w.db.messages (deliveredIds answer.rows) now)).db id :=
    fun id hid => delivered_of_markFetched now hid (hdeliverable id hid)
  refine ⟨hpage, fun id hid => ?_, fun hsize => ⟨hpage.given hsize, fun m hm ho hs => ?_⟩⟩
  · rcases hids' id hid with hin | hsettled
    · exact (hmarked id hin).settled
    · exact hsettled
  · exact hmarked m.id (hsent hsize m hm ho hs)

/-- The widget takes an answer, and its page with it. -/
theorem watched_receive (h : Watched v w) {p : PollId} {answer : Answer}
    (hp : w.poll p = .answered answer) {w' : World} (hdb : w'.db = w.db)
    (hlastSeen : w'.lastSeen = answer.last?.or w.lastSeen)
    (hgiven : w'.given = w.given ++ answer.ids) (hpoll : w'.poll = (w.setPoll p .closed).poll) :
    Watched v w' := by
  have hmoves : Moves v w w'.db := hdb ▸ moves_refl h.homed
  obtain ⟨hpage, hids, _⟩ : PollOk v w (.answered answer) := hp ▸ h.polls p
  have hin : ∀ id ∈ w.given, id ∈ w'.given := fun id hid =>
    hgiven ▸ List.mem_append_left answer.ids hid
  have hin' : ∀ id ∈ answer.ids, id ∈ w'.given := fun id hid =>
    hgiven ▸ List.mem_append_right w.given hid
  refine ⟨hmoves.homed, fun t ht => ?_, fun id hid => ?_, fun q => ?_⟩
  · rw [hlastSeen] at ht
    rcases Option.or_eq_some_iff.mp ht with hlast | ⟨_, hbefore⟩
    · have huse : w.InUse t := Or.inr ⟨p, by rw [hp]; exact hlast⟩
      exact (hpage.covered t hlast).mono hmoves huse (fun id hid => Or.inl (hin id hid))
        fun id hid => Or.inl (hin' id hid)
    · exact (h.lastSeen t hbefore).mono hmoves (Or.inl hbefore) (fun id hid => Or.inl (hin id hid))
        fun _ hid => Or.inr hid
  · rw [hgiven, List.mem_append] at hid
    rw [hdb]
    rcases hid with hbefore | hnow
    · exact h.given id hbefore
    · exact hids id hnow
  · rw [hpoll]
    by_cases hq : q = p
    · rw [hq, setPoll_self]
      trivial
    · rw [setPoll_of_ne w .closed hq]
      exact (h.polls q).mono hmoves hin

theorem watched_step {w' : World} {a : Action} (h : Watched v w)
    (hs : (machine v).step w a = some w') (horderly : Orderly v w a w') : Watched v w' := by
  change step v w a = some w' at hs
  cases a with
  | conversations a =>
      obtain ⟨base, hbase, rfl⟩ := Option.map_eq_some_iff.mp hs
      exact h.move (moves_conversations h.homed hbase horderly) rfl
        rfl fun _ => Or.inl rfl
  | markSent messageId providerMessageId sentAt now =>
      obtain ⟨t, ht, rfl⟩ := Option.map_eq_some_iff.mp hs
      exact h.move (moves_markSent h.homed ht horderly) rfl rfl fun _ => Or.inl rfl
  | poll p =>
      simp only [step] at hs
      split at hs
      · cases hs
        exact h.setPoll p h.lastSeen
      · cases hs
  | findIdentity p =>
      simp only [step] at hs
      split at hs
      · next after hp =>
          cases hs
          exact h.setPoll p (pollOk_afterIdentity (hp ▸ h.polls p))
      · cases hs
  | fetch p rows =>
      simp only [step] at hs
      split at hs
      · next identityId since hp =>
          obtain ⟨hselects, hs⟩ := Option.ite_none_right_eq_some.mp hs
          cases hs
          exact h.setPoll p (pollOk_fetch h (hp ▸ h.polls p) hselects horderly)
      · cases hs
  | deliver p now =>
      simp only [step] at hs
      split at hs
      · next answer hp =>
          cases hs
          exact watched_deliver h now hp
      · cases hs
  | receive p =>
      simp only [step] at hs
      split at hs
      · next answer hp =>
          cases hs
          exact watched_receive h hp rfl rfl rfl rfl
      · cases hs
  | lose p =>
      cases hs
      exact h.setPoll p trivial

end Step

/-- In an orderly run an answer with less than a full page misses nothing: every
message of the visitor has been given, and every reply that was sent is
`DELIVERED`. -/
theorem missesNothing_of_run {v : Visitor} {as : List Action} {w : World}
    (horderly : (machine v).Along (Orderly v) World.init as)
    (hrun : (machine v).run World.init as = some w) : MissesNothing w := by
  have h : Watched v w := Machine.invariant_along (I := Watched v)
    (fun _ _ _ h hs ho => watched_step h hs ho) (watched_init v) horderly hrun
  intro p answer hp hsize
  obtain ⟨_, _, hcomplete⟩ : PollOk v w (.answered answer) := hp ▸ h.polls p
  exact hcomplete hsize

/-! ## A visitor and an agent -/

/-- The poll an action moves. -/
def Action.poll? : Action → Option PollId
  | .conversations _ => none
  | .markSent _ _ _ _ => none
  | .poll p => some p
  | .findIdentity p => some p
  | .fetch p _ => some p
  | .deliver p _ => some p
  | .receive p => some p
  | .lose p => some p

/-- A step leaves the other polls alone. -/
theorem poll_of_step {v : Visitor} {w w' : World} {a : Action} (hs : step v w a = some w')
    {q : PollId} (hq : a.poll? ≠ some q) : w'.poll q = w.poll q := by
  have hother : ∀ {p : PollId} {s : Poll}, some p ≠ some q → (w.setPoll p s).poll q = w.poll q :=
    fun hp => setPoll_of_ne w _ fun h => hp (congrArg some h.symm)
  cases a with
  | conversations a =>
      obtain ⟨base, _, rfl⟩ := Option.map_eq_some_iff.mp hs
      rfl
  | markSent messageId providerMessageId sentAt now =>
      obtain ⟨t, _, rfl⟩ := Option.map_eq_some_iff.mp hs
      rfl
  | lose p =>
      cases hs
      exact hother hq
  | deliver p now =>
      simp only [step] at hs
      split at hs
      · next answer hp =>
          cases hs
          exact setPoll_of_ne (w.setMessages _) _ fun h => hq (congrArg some h.symm)
      · cases hs
  | fetch p rows =>
      simp only [step] at hs
      split at hs
      · obtain ⟨_, hs⟩ := Option.ite_none_right_eq_some.mp hs
        cases hs
        exact hother hq
      · cases hs
  | _ =>
      simp only [step] at hs
      split at hs
      · cases hs
        exact hother hq
      · cases hs

/-- A test of an orderly step of a widget with one poll. -/
def tidy (w : World) : Action → Bool
  | .conversations a =>
      (Conversations.step w.base a).all fun base =>
        base.db.messages.rows.all fun m => decide (m ∈ w.db.messages.rows) ||
          (w.lastSeen.all (· < m.createdAt) && (w.poll 0).cursor?.all (· < m.createdAt))
  | .markSent messageId _ _ _ =>
      !w.given.contains messageId && (w.poll 0).answer?.all fun answer => !answer.ids.contains messageId
  | .fetch p rows => p = 0 && rows.length < PAGE_SIZE
  | a => a.poll? = some 0

theorem orderly_of_tidy {v : Visitor} {w w' : World} {a : Action}
    (hone : ∀ p, p ≠ 0 → w.poll p = .idle) (hs : step v w a = some w') (h : tidy w a = true) :
    (∀ p, p ≠ 0 → w'.poll p = .idle) ∧ Orderly v w a w' := by
  have hmoved : a.poll? = none ∨ a.poll? = some 0 := by
    cases a with
    | fetch p rows =>
        simp only [tidy, Bool.and_eq_true, decide_eq_true_eq] at h
        exact Or.inr (congrArg some h.1)
    | conversations a => exact Or.inl rfl
    | markSent messageId providerMessageId sentAt now => exact Or.inl rfl
    | _ => exact Or.inr (of_decide_eq_true h)
  refine ⟨fun p hp => ?_, ?_⟩
  · rw [poll_of_step hs, hone p hp]
    rcases hmoved with hnone | hzero
    · rw [hnone]
      exact fun h => by cases h
    · rw [hzero]
      exact fun h => hp (Option.some.inj h).symm
  · cases a with
    | conversations a =>
        obtain ⟨base, hbase, rfl⟩ := Option.map_eq_some_iff.mp hs
        intro m hm hnew t huse
        obtain ⟨_, _, hmem, _⟩ := Visitor.mem_messages.mp hm
        simp only [tidy, hbase, Option.all_some, List.all_eq_true, Bool.or_eq_true,
          decide_eq_true_eq, Bool.and_eq_true] at h
        obtain ⟨hlast, hcursor⟩ := (h m hmem).resolve_left hnew
        rcases huse with hseen | ⟨p, hp⟩
        · rw [hseen] at hlast
          exact of_decide_eq_true hlast
        · by_cases hzero : p = 0
          · rw [← hzero, hp] at hcursor
            exact of_decide_eq_true hcursor
          · rw [hone p hzero] at hp
            cases hp
    | markSent messageId providerMessageId sentAt now =>
        intro m _ _ hreturned
        simp only [tidy, Bool.and_eq_true, Bool.not_eq_true', List.contains_eq_mem,
          decide_eq_false_iff_not] at h
        rcases hreturned with hgiven | ⟨p, answer, hp, hid⟩
        · exact h.1 hgiven
        · by_cases hzero : p = 0
          · have hnot := h.2
            rw [← hzero, hp] at hnot
            simp [hid] at hnot
          · rw [hone p hzero] at hp
            cases hp
    | fetch p rows =>
        intro hfull
        simp only [tidy, Bool.and_eq_true, decide_eq_true_eq] at h
        exact absurd hfull (Nat.ne_of_lt h.2)
    | _ => trivial

/-- The visitor writes, and an agent answers. -/
def visitor : Visitor := ⟨exampleChannel.id, "visitor"⟩

def greeted : List Action :=
  (Conversations.exampleIngest 0 (Conversations.exampleRequest "e1" "p1" 1) "c" 2 []).map
    .conversations ++
    [.conversations (.send 1 ⟨"workspace", "member", "Ann", true, true⟩ exampleChannel "c"
        { text := "Hi" } "m" 3),
      .conversations (.commitSend 1 4)]

def sendsReply : Action := .markSent "m" (some "p2") 5 5

/-- The messages that are there after some actions. -/
def rowsAfter (as : List Action) : List Message :=
  match (machine visitor).run World.init as with
  | none => []
  | some w => w.db.messages.rows

/-- A poll that reads the messages of this moment. -/
def pollAfter (p : PollId) (as : List Action) : List Action :=
  as ++ [.poll p, .findIdentity p, .fetch p (rowsAfter as)]

/-- A poll that comes when the reply was sent misses nothing. -/
theorem missesNothing_sentFirst : ∃ w,
    (machine visitor).run World.init (pollAfter 0 (greeted ++ [sendsReply]) ++ [.deliver 0 6]) =
      some w ∧ (∃ answer, w.poll 0 = .answered answer ∧ answer.ids = ["e1", "m"]) ∧
        MissesNothing w := by
  have hview : ((machine visitor).run World.init
      (pollAfter 0 (greeted ++ [sendsReply]) ++ [.deliver 0 6])).map (fun w =>
        (w.poll 0).answer?.map fun answer => (decide (w.poll 0 = .answered answer), answer.ids)) =
          some (some (true, ["e1", "m"])) := by decide
  obtain ⟨w, hw, hanswer⟩ := Option.map_eq_some_iff.mp hview
  obtain ⟨answer, _, hpair⟩ := Option.map_eq_some_iff.mp hanswer
  rw [Prod.mk.injEq, decide_eq_true_eq] at hpair
  have htidy : (machine visitor).checks tidy World.init
      (pollAfter 0 (greeted ++ [sendsReply]) ++ [.deliver 0 6]) = true := by decide
  have horderly : (machine visitor).Along (Orderly visitor) World.init
      (pollAfter 0 (greeted ++ [sendsReply]) ++ [.deliver 0 6]) :=
    Machine.along_of_along (I := fun w => ∀ p, p ≠ 0 → w.poll p = .idle)
      (fun _ _ _ hone hs h => orderly_of_tidy hone hs h) (fun _ _ => rfl)
      (Machine.along_of_checks (P := fun w a _ => tidy w a = true) (fun _ _ _ h => h) htidy)
  exact ⟨w, hw, ⟨answer, hpair⟩, missesNothing_of_run horderly hw⟩

/-- A reply is given before it was sent.  The next poll asks for later ones only,
and it stays `SENT`. -/
theorem not_missesNothing : ¬ ∀ v as w, (machine v).run World.init as = some w →
    MissesNothing w := by
  intro h
  have hview : ((machine visitor).run World.init
      (pollAfter 0 greeted ++ [.receive 0, sendsReply, .poll 1, .findIdentity 1, .fetch 1 []])).map
        (fun w => ((w.poll 1).answer?.map fun answer =>
          (decide (w.poll 1 = .answered answer), answer.rows.length, answer.seen.any fun m =>
            m.id = "m" && m.direction = .outbound && m.status = .sent),
          (w.db.messages.find? (.id "m")).map Message.status)) =
          some (some (true, 0, true), some .sent) := by decide
  obtain ⟨w, hw, hpair⟩ := Option.map_eq_some_iff.mp hview
  rw [Prod.mk.injEq] at hpair
  obtain ⟨hanswer, hstatus⟩ := hpair
  obtain ⟨answer, _, htriple⟩ := Option.map_eq_some_iff.mp hanswer
  simp only [Prod.mk.injEq, decide_eq_true_eq, List.any_eq_true, Bool.and_eq_true] at htriple
  obtain ⟨hpoll, hsize, m, hm, ⟨hid, houtbound⟩, hsent⟩ := htriple
  have hsmall : answer.rows.length < PAGE_SIZE := by
    rw [hsize]
    decide
  obtain ⟨m', hm', hdelivered⟩ :=
    (h visitor _ w hw 1 answer hpoll hsmall).delivered m hm houtbound hsent
  rw [hid] at hm'
  rw [hm', Option.map_some, Option.some.injEq, hdelivered] at hstatus
  cases hstatus

end Vynor.Webchat
