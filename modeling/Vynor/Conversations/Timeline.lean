import Mathlib.Data.Set.Insert
import Vynor.Conversations.Commits

/-!
# The timeline of a conversation

The timeline of a conversation is its messages that are not private, each with
a time.  A step adds one message to it or leaves it as it is.
-/

namespace Vynor.Conversations

open Lib (Table)

/-- The server's time of the public send that created a message. -/
def Entry.sentNow (id : Id) : Entry → Option Date
  | .sent _ id' now false => if id' = id then some now else none
  | _ => none

/-- The timeline time of a message: `createdAt` of an inbound one, and the
server's time of the send of an outbound one. -/
def timelineTime (log : List Entry) (m : Message) : Option Date :=
  match m.direction with
  | .inbound => some m.createdAt
  | .outbound => log.findSome? (Entry.sentNow m.id)

/-- A message of the conversation that is not private. -/
structure Shown (c : Id) (w : World) (m : Message) : Prop where
  stored : m ∈ w.db.messages.rows
  conversationId : m.conversationId = c
  isPublic : m.isPrivate = false

/-- The timeline times of a conversation. -/
def times (c : Id) (w : World) : Set Date :=
  {t | ∃ m, Shown c w m ∧ timelineTime w.log m = some t}

/-- The times of its inbound messages. -/
def inboundTimes (c : Id) (w : World) : Set Date :=
  {t | ∃ m, Shown c w m ∧ m.direction = .inbound ∧ m.createdAt = t}

/-! ## How the timeline grows -/

/-- One message comes to the timeline. -/
structure Extends (c : Id) (w w' : World) (m : Message) (t : Date) : Prop where
  shown : ∀ m', Shown c w' m' ↔ m' = m ∨ Shown c w m'
  time : timelineTime w'.log m = some t
  kept : ∀ m', Shown c w m' → timelineTime w'.log m' = timelineTime w.log m'

/-- The timeline stays as it is. -/
structure SameTimeline (c : Id) (w w' : World) : Prop where
  shown : ∀ m, Shown c w' m ↔ Shown c w m
  kept : ∀ m, Shown c w m → timelineTime w'.log m = timelineTime w.log m

section Growth

variable {c : Id} {w w' : World} {m : Message} {t : Date}

theorem Extends.mine (h : Extends c w w' m t) : Shown c w' m := (h.shown m).mpr (Or.inl rfl)

theorem Extends.times (h : Extends c w w' m t) : times c w' = insert t (times c w) := by
  ext x
  constructor
  · rintro ⟨m', hm', hx⟩
    rcases (h.shown m').mp hm' with rfl | hold
    · rw [h.time] at hx
      cases hx
      exact Set.mem_insert _ _
    · exact Set.mem_insert_of_mem _ ⟨m', hold, (h.kept m' hold) ▸ hx⟩
  · rintro (rfl | ⟨m', hold, hx⟩)
    · exact ⟨m, h.mine, h.time⟩
    · exact ⟨m', (h.shown m').mpr (Or.inr hold), (h.kept m' hold).trans hx⟩

theorem Extends.inboundTimes (h : Extends c w w' m t) (hm : m.direction = .inbound) :
    inboundTimes c w' = insert m.createdAt (inboundTimes c w) := by
  ext x
  constructor
  · rintro ⟨m', hm', hd, hx⟩
    rcases (h.shown m').mp hm' with rfl | hold
    · exact Or.inl hx.symm
    · exact Or.inr ⟨m', hold, hd, hx⟩
  · rintro (rfl | ⟨m', hold, hd, hx⟩)
    · exact ⟨m, h.mine, hm, rfl⟩
    · exact ⟨m', (h.shown m').mpr (Or.inr hold), hd, hx⟩

theorem Extends.inboundTimes_of_outbound (h : Extends c w w' m t) (hm : m.direction = .outbound) :
    Conversations.inboundTimes c w' = Conversations.inboundTimes c w := by
  ext x
  constructor
  · rintro ⟨m', hm', hd, hx⟩
    rcases (h.shown m').mp hm' with rfl | hold
    · rw [hm] at hd
      cases hd
    · exact ⟨m', hold, hd, hx⟩
  · rintro ⟨m', hold, hd, hx⟩
    exact ⟨m', (h.shown m').mpr (Or.inr hold), hd, hx⟩

theorem SameTimeline.times (h : SameTimeline c w w') : times c w' = times c w := by
  ext x
  constructor
  · rintro ⟨m, hm, hx⟩
    have hold := (h.shown m).mp hm
    exact ⟨m, hold, (h.kept m hold) ▸ hx⟩
  · rintro ⟨m, hold, hx⟩
    exact ⟨m, (h.shown m).mpr hold, (h.kept m hold).trans hx⟩

theorem SameTimeline.inboundTimes (h : SameTimeline c w w') :
    Conversations.inboundTimes c w' = Conversations.inboundTimes c w := by
  ext x
  constructor
  · rintro ⟨m, hm, hx⟩
    exact ⟨m, (h.shown m).mp hm, hx⟩
  · rintro ⟨m, hm, hx⟩
    exact ⟨m, (h.shown m).mpr hm, hx⟩

end Growth

/-! ## What a commit adds -/

/-- What a commit inserts belongs to its conversation. -/
theorem conversationId_of_addedBy {w : World} {a : Action} {e : Entry} {added : List Message}
    (h : AddedBy w a e added) {m : Message} (hm : m ∈ added) :
    m.conversationId = e.conversationId := by
  cases h with
  | ingest | send =>
      rw [List.mem_singleton] at hm
      rw [hm]
      rfl
  | markRead => cases hm
  | update =>
      obtain ⟨entry, _, rfl⟩ := List.mem_map.mp hm
      rfl

section Added

variable {c : Id} {w w' : World} {a : Action} {e : Entry} {added : List Message}

/-- A commit leaves the timeline times of the messages that were there. -/
theorem timelineTime_kept (hrows : w'.db.messages.rows = w.db.messages.rows ++ added)
    (hadded : AddedBy w a e added) {m : Message} (hm : m ∈ w.db.messages.rows) :
    timelineTime (e :: w.log) m = timelineTime w.log m := by
  have hnone : e.sentNow m.id = none := by
    cases hadded with
    | @send i createdAt d _ =>
        have hdisjoint := Table.disjoint_of_append hrows hm (List.mem_singleton_self _)
        have hne : d.id ≠ m.id := fun heq =>
          hdisjoint (Message.id_mem_keys.mpr rfl) (Message.id_mem_keys.mpr heq)
        cases d.request.isPrivate <;> simp [Entry.sentNow, hne]
    | _ => rfl
  cases hd : m.direction <;> simp [timelineTime, hd, hnone]

theorem sameTimeline_of_added (hrows : w'.db.messages.rows = w.db.messages.rows ++ added)
    (hadded : AddedBy w a e added) (hlog : w'.log = e :: w.log)
    (hnone : ∀ m ∈ added, m.conversationId = c → m.isPrivate = true) : SameTimeline c w w' where
  shown m := by
    constructor
    · rintro ⟨hm, hc, hpublic⟩
      rw [hrows, List.mem_append] at hm
      rcases hm with hold | hnew
      · exact ⟨hold, hc, hpublic⟩
      · rw [hnone m hnew hc] at hpublic
        cases hpublic
    · rintro ⟨hm, hc, hpublic⟩
      exact ⟨hrows ▸ List.mem_append_left _ hm, hc, hpublic⟩
  kept m hm := by
    rw [hlog]
    exact timelineTime_kept hrows hadded hm.stored

theorem extends_of_added {m : Message} {t : Date}
    (hrows : w'.db.messages.rows = w.db.messages.rows ++ [m]) (hadded : AddedBy w a e [m])
    (hlog : w'.log = e :: w.log) (hc : m.conversationId = c) (hpublic : m.isPrivate = false)
    (htime : timelineTime w'.log m = some t) : Extends c w w' m t where
  shown m' := by
    constructor
    · rintro ⟨hm, hc', hpublic'⟩
      rw [hrows, List.mem_append, List.mem_singleton] at hm
      rcases hm with hold | hnew
      · exact Or.inr ⟨hold, hc', hpublic'⟩
      · exact Or.inl hnew
    · rintro (rfl | hold)
      · exact ⟨by simp [hrows], hc, hpublic⟩
      · exact ⟨hrows ▸ List.mem_append_left _ hold.stored, hold.conversationId, hold.isPublic⟩
  time := htime
  kept m' hm' := by
    rw [hlog]
    exact timelineTime_kept hrows hadded hm'.stored

end Added

end Vynor.Conversations
