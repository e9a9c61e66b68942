import Mathlib.Data.Int.ConditionallyCompleteOrder
import Mathlib.Order.ConditionallyCompleteLattice.Basic
import Vynor.Conversations.Timeline
import Vynor.Lib.Greatest

/-!
# The summary of a conversation

A conversation carries the time, preview and direction of its latest message
and the time of its latest inbound one.  An ingest compares its message with
the row it has read before it overwrites them.  A send writes the server's time
unconditionally, which can lie before the time of a message that is already
there, and an ingest can commit after a later message that it did not see.

`InOrder` is the exact condition: what overwrites a time is not below it.
-/

namespace Vynor.Conversations

open Lib (Table Machine Tracks NotBelow)

/-- The row summarises the timeline. -/
structure Summarised (c : Id) (w : World) (r : Conversation) : Prop where
  lastMessageAt : Tracks (times c w) r.lastMessageAt
  preview : ∀ t, r.lastMessageAt = some t → ∃ m, Shown c w m ∧ timelineTime w.log m = some t ∧
    r.lastMessagePreview = some (truncatePreview m.text) ∧
    r.lastMessageDirection = some m.direction
  lastInboundAt : Tracks (inboundTimes c w) r.lastInboundAt

/-- Every message has a timeline time, and the row summarises them. -/
structure SummaryMatches (c : Id) (w : World) : Prop where
  timed : ∀ m, Shown c w m → ∃ t, timelineTime w.log m = some t
  summarised : ∀ r, w.db.conversations.find? c = some r → Summarised c w r

/-- A transaction that commits overwrites a time of the conversation only with
one that is not below it. -/
def InOrder (c : Id) (w : World) (a : Action) (w' : World) : Prop :=
  w'.log ≠ w.log → ∀ r, w.db.conversations.find? c = some r →
    match a with
    | .commitIngest i _ _ _ => ∀ tx read replyTo, w.call i = .writing tx (some read) replyTo →
        read.id = c →
        (isLatest read tx.createdAt = true → NotBelow r.lastMessageAt tx.createdAt) ∧
          (isLatestInbound read tx.createdAt = true → NotBelow r.lastInboundAt tx.createdAt)
    | .commitSend i _ => ∀ d, w.call i = .sending d → d.conversation.id = c →
        d.request.isPrivate = false → NotBelow r.lastMessageAt d.now
    | _ => True

/-! ## What a write does to the summary -/

/-- The row is at least as far as the one that was read. -/
structure Behind (read r : Conversation) : Prop where
  lastMessageAt : ∀ t ∈ read.lastMessageAt, ∃ s ∈ r.lastMessageAt, t ≤ s
  lastInboundAt : ∀ t ∈ read.lastInboundAt, ∃ s ∈ r.lastInboundAt, t ≤ s

theorem Behind.refl (r : Conversation) : Behind r r where
  lastMessageAt t ht := ⟨t, ht, Int.le_refl t⟩
  lastInboundAt t ht := ⟨t, ht, Int.le_refl t⟩

theorem Behind.trans {r₁ r₂ r₃ : Conversation} (h₁ : Behind r₁ r₂) (h₂ : Behind r₂ r₃) :
    Behind r₁ r₃ where
  lastMessageAt t ht := by
    obtain ⟨s, hs, hle⟩ := h₁.lastMessageAt t ht
    obtain ⟨u, hu, hle'⟩ := h₂.lastMessageAt s hs
    exact ⟨u, hu, Int.le_trans hle hle'⟩
  lastInboundAt t ht := by
    obtain ⟨s, hs, hle⟩ := h₁.lastInboundAt t ht
    obtain ⟨u, hu, hle'⟩ := h₂.lastInboundAt s hs
    exact ⟨u, hu, Int.le_trans hle hle'⟩

theorem le_of_not_isLatest {read : Conversation} {t : Date} (h : isLatest read t = false) :
    ∃ s ∈ read.lastMessageAt, t ≤ s := by
  unfold isLatest at h
  split at h
  · cases h
  next s hs =>
    simp only [decide_eq_false_iff_not] at h
    exact ⟨s, hs, Int.le_of_lt (Int.not_le.mp h)⟩

theorem le_of_not_isLatestInbound {read : Conversation} {t : Date}
    (h : isLatestInbound read t = false) : ∃ s ∈ read.lastInboundAt, t ≤ s := by
  unfold isLatestInbound at h
  split at h
  · cases h
  next s hs =>
    simp only [decide_eq_false_iff_not] at h
    exact ⟨s, hs, Int.not_lt.mp h⟩

section Writes

variable {c : Id} {w w' : World} {r read : Conversation} {m : Message} {t : Date}

/-- Every message still has a time when one comes with a time. -/
theorem timed_of_extends (hold : SummaryMatches c w) (h : Extends c w w' m t) :
    ∀ m', Shown c w' m' → ∃ t', timelineTime w'.log m' = some t' := by
  intro m' hm'
  rcases (h.shown m').mp hm' with rfl | hm
  · exact ⟨t, h.time⟩
  · rw [h.kept m' hm]
    exact hold.timed m' hm

/-- A row that is changed elsewhere still summarises the timeline. -/
theorem SameTimeline.summarised (h : SameTimeline c w w') {r' : Conversation}
    (hr : Summarised c w r) (hlast : r'.lastMessageAt = r.lastMessageAt)
    (hpreview : r'.lastMessagePreview = r.lastMessagePreview)
    (hdirection : r'.lastMessageDirection = r.lastMessageDirection)
    (hinbound : r'.lastInboundAt = r.lastInboundAt) : Summarised c w' r' where
  lastMessageAt := by
    rw [h.times, hlast]
    exact hr.lastMessageAt
  preview t ht := by
    rw [hlast] at ht
    obtain ⟨m, hm, htime, hp, hd⟩ := hr.preview t ht
    exact ⟨m, (h.shown m).mpr hm, (h.kept m hm).trans htime, hpreview.trans hp, hdirection.trans hd⟩
  lastInboundAt := by
    rw [h.inboundTimes, hinbound]
    exact hr.lastInboundAt

/-- An ingest of `m` keeps the summary, where its decisions hold for the row as
it is by then. -/
theorem summarised_counted (hr : Summarised c w r) (hext : Extends c w w' m t)
    (hm : m.direction = .inbound) (ht : m.createdAt = t) (hbehind : Behind read r)
    (hlatest : isLatest read t = true → NotBelow r.lastMessageAt t)
    (hinbound : isLatestInbound read t = true → NotBelow r.lastInboundAt t) :
    Summarised c w' (counted read t m.text r) := by
  subst ht
  refine ⟨?_, ?_, ?_⟩
  · rw [hext.times]
    by_cases h : isLatest read m.createdAt = true
    · simp only [counted, h, if_true]
      exact (Lib.tracks_insert_some hr.lastMessageAt).mpr (hlatest h)
    · rw [Bool.not_eq_true] at h
      obtain ⟨s, hs, hle⟩ := le_of_not_isLatest h
      obtain ⟨u, hu, hle'⟩ := hbehind.lastMessageAt s hs
      simp only [counted, h]
      exact (Lib.tracks_insert_iff hr.lastMessageAt).mpr ⟨u, hu, Int.le_trans hle hle'⟩
  · intro x hx
    by_cases h : isLatest read m.createdAt = true
    · simp only [counted, h, if_true, Option.some.injEq] at hx ⊢
      subst hx
      exact ⟨m, hext.mine, hext.time, rfl, by rw [hm]⟩
    · simp only [counted, h] at hx ⊢
      obtain ⟨m', hm', htime, hp, hd⟩ := hr.preview x hx
      exact ⟨m', (hext.shown m').mpr (Or.inr hm'), (hext.kept m' hm').trans htime, hp, hd⟩
  · rw [hext.inboundTimes hm]
    by_cases h : isLatestInbound read m.createdAt = true
    · simp only [counted, h, if_true]
      exact (Lib.tracks_insert_some hr.lastInboundAt).mpr (hinbound h)
    · rw [Bool.not_eq_true] at h
      obtain ⟨s, hs, hle⟩ := le_of_not_isLatestInbound h
      obtain ⟨u, hu, hle'⟩ := hbehind.lastInboundAt s hs
      simp only [counted, h]
      exact (Lib.tracks_insert_iff hr.lastInboundAt).mpr ⟨u, hu, Int.le_trans hle hle'⟩

/-- An ingest that has kept the summary overwrote nothing later. -/
theorem notBelow_of_counted (hr : Summarised c w r) (hext : Extends c w w' m t)
    (hm : m.direction = .inbound) (ht : m.createdAt = t)
    (hr' : Summarised c w' (counted read t m.text r)) :
    (isLatest read t = true → NotBelow r.lastMessageAt t) ∧
      (isLatestInbound read t = true → NotBelow r.lastInboundAt t) := by
  subst ht
  constructor
  · intro h
    have hlast := hr'.lastMessageAt
    rw [hext.times] at hlast
    simp only [counted, h, if_true] at hlast
    exact (Lib.tracks_insert_some hr.lastMessageAt).mp hlast
  · intro h
    have hlast := hr'.lastInboundAt
    rw [hext.inboundTimes hm] at hlast
    simp only [counted, h, if_true] at hlast
    exact (Lib.tracks_insert_some hr.lastInboundAt).mp hlast

/-- A send keeps the summary exactly where its time is not below the row's. -/
theorem summarised_answered_iff (hr : Summarised c w r) (hext : Extends c w w' m t)
    (hm : m.direction = .outbound) :
    Summarised c w' (answered t m.text r) ↔ NotBelow r.lastMessageAt t := by
  constructor
  · intro h
    have hlast := h.lastMessageAt
    rw [hext.times] at hlast
    exact (Lib.tracks_insert_some hr.lastMessageAt).mp hlast
  · intro h
    refine ⟨?_, ?_, ?_⟩
    · rw [hext.times]
      exact (Lib.tracks_insert_some hr.lastMessageAt).mpr h
    · intro x hx
      cases hx
      exact ⟨m, hext.mine, hext.time, rfl, by rw [hm]; rfl⟩
    · rw [hext.inboundTimes_of_outbound hm]
      exact hr.lastInboundAt

end Writes

/-! ## What a step does to one conversation -/

/-- The row keeps its summary. -/
structure SameSummary (r r' : Conversation) : Prop where
  lastMessageAt : r'.lastMessageAt = r.lastMessageAt
  preview : r'.lastMessagePreview = r.lastMessagePreview
  direction : r'.lastMessageDirection = r.lastMessageDirection
  lastInboundAt : r'.lastInboundAt = r.lastInboundAt

/-- The ways a step touches the timeline of a conversation and its row. -/
inductive Effect (c : Id) (w : World) (a : Action) (w' : World) : Prop where
  | quiet : SameTimeline c w w' → InOrder c w a w' →
      (∀ r, w.db.conversations.find? c = some r →
        ∃ r', w'.db.conversations.find? c = some r' ∧ SameSummary r r') →
      (w.db.conversations.find? c = none → w'.db.conversations.find? c = none) → Effect c w a w'
  | ingested {i : CallId} {conversationId : Id} {createdAt : Date} {assignee : Option Id}
      {tx : IngestTx} {read r : Conversation} {replyTo : Option Id} :
      a = .commitIngest i conversationId createdAt assignee → w'.log ≠ w.log →
      w.call i = .writing tx (some read) replyTo → read.id = c →
      w.db.conversations.find? c = some r →
      w'.db.conversations.find? c =
        some (counted read tx.createdAt (newMessage tx c replyTo).text r) →
      Extends c w w' (newMessage tx c replyTo) tx.createdAt → Effect c w a w'
  | created {tx : IngestTx} {replyTo : Option Id} {fresh : Conversation} :
      InOrder c w a w' → w.db.conversations.find? c = none → fresh.lastMessageAt = none →
      fresh.lastInboundAt = none →
      w'.db.conversations.find? c =
        some (counted fresh tx.createdAt (newMessage tx c replyTo).text fresh) →
      Extends c w w' (newMessage tx c replyTo) tx.createdAt → Effect c w a w'
  | sent {i : CallId} {createdAt : Date} {d : Draft} {r : Conversation} :
      a = .commitSend i createdAt → w'.log ≠ w.log → w.call i = .sending d →
      d.conversation.id = c → d.request.isPrivate = false →
      w.db.conversations.find? c = some r →
      w'.db.conversations.find? c = some (answered d.now (draftMessage d createdAt).text r) →
      Extends c w w' (draftMessage d createdAt) d.now → Effect c w a w'

theorem sameSummary_refl (r : Conversation) : SameSummary r r := ⟨rfl, rfl, rfl, rfl⟩

/-- A commit on another conversation leaves this one alone. -/
theorem effect_of_other {c : Id} {w w' : World} {a : Action} {e : Entry}
    (h : Committed w a w'.db e) (hlog : w'.log = e :: w.log) (hne : e.conversationId ≠ c) :
    Effect c w a w' := by
  obtain ⟨added, hrows, hadded⟩ := h.messages
  refine .quiet (sameTimeline_of_added hrows hadded hlog ?_) ?_ ?_ ?_
  · intro m hm hc
    exact absurd ((conversationId_of_addedBy hadded hm).symm.trans hc) hne
  · intro _ r hr
    cases h with
    | ingest hcall hin =>
        intro tx read replyTo hcall' hread
        rw [hcall] at hcall'
        cases hcall'
        cases hin.target
        exact absurd hread hne
    | send hcall _ =>
        intro d hcall' hd
        rw [hcall] at hcall'
        cases hcall'
        exact absurd hd hne
    | _ => trivial
  · intro r hr
    obtain ⟨r', hr', hchange⟩ := h.row hr
    have hid := Conversation.id_of_find? hr
    cases hchange with
    | other => exact ⟨r, hr', sameSummary_refl r⟩
    | _ => exact absurd hid hne
  · intro hnone
    cases hr : w'.db.conversations.find? c with
    | none => rfl
    | some r =>
        obtain ⟨_, _, _, _, _, _, _, _, rfl, _⟩ := h.new_row hnone hr
        exact absurd rfl hne

/-- A commit that shows no message and rewrites nothing of the summary. -/
theorem effect_of_update {c : Id} {w w' : World} {a : Action} {e : Entry} {added : List Message}
    {f : Conversation → Conversation} {hf : ∀ r, (f r).keys = r.keys}
    (hrows : w'.db.messages.rows = w.db.messages.rows ++ added) (hadded : AddedBy w a e added)
    (hlog : w'.log = e :: w.log) (hprivate : ∀ m ∈ added, m.isPrivate = true)
    (horder : InOrder c w a w')
    (hconv : w'.db.conversations = w.db.conversations.updateMany (fun r => r.id = c) f hf)
    (hsame : ∀ r, SameSummary r (f r)) : Effect c w a w' := by
  refine .quiet (sameTimeline_of_added hrows hadded hlog fun m hm _ => hprivate m hm) horder ?_ ?_
  · intro r hr
    rw [hconv]
    refine ⟨_, Table.find?_updateMany_of_some hr, ?_⟩
    split
    · exact hsame r
    · exact sameSummary_refl r
  · intro hnone
    rw [hconv, Table.find?_updateMany, hnone, Option.map_none]

/-- Every commit touches the conversation in one of these ways. -/
theorem effect_of_commit {c : Id} {w w' : World} {a : Action} {e : Entry}
    (h : Committed w a w'.db e) (hlog : w'.log = e :: w.log) : Effect c w a w' := by
  by_cases hc : e.conversationId = c
  · have hchanged : w'.log ≠ w.log := by
      rw [hlog]
      exact List.cons_ne_self _ _
    cases h with
    | @ingest i conversationId createdAt assignee tx read replyTo _ result cv t hcall hin =>
        simp only [Entry.conversationId] at hc
        subst hc
        have hrows := (Table.insert?_eq_some.mp hin.inserted).2
        have hadded : AddedBy w (.commitIngest i conversationId createdAt assignee)
            (.ingested cv.id tx.request.messageId) [newMessage tx cv.id replyTo] := .ingest hcall
        have hext : Extends cv.id w w' (newMessage tx cv.id replyTo) tx.createdAt :=
          extends_of_added hrows hadded hlog rfl rfl rfl
        have htarget := hin.target
        have hconv := hin.counted
        cases htarget with
        | read hrow =>
            refine .ingested rfl hchanged hcall rfl hrow ?_ hext
            rw [hconv, Table.find?_updateMany_of_some hrow, if_pos]
            exact decide_eq_true (Conversation.id_of_find? hrow)
        | created hins =>
            have hnone := Table.free_iff_find?_eq_none.mp (Table.insert?_eq_some.mp hins).1 _
              (Conversation.mem_keys.mpr rfl)
            refine @Effect.created _ _ _ _ tx replyTo
              (newConversation tx.request tx.sender conversationId createdAt assignee)
              ?_ hnone rfl rfl ?_ hext
            · intro _ r hr
              rw [hnone] at hr
              cases hr
            · have hrow := (Table.find?_of_insert? hins _).trans
                (if_pos (Conversation.mem_keys.mpr rfl))
              rw [hconv, Table.find?_updateMany_of_some hrow, if_pos (by simp)]
    | @send i createdAt d _ hcall hdb =>
        obtain ⟨hins, hconv⟩ := commitSend_eq_some hdb
        have hrows := (Table.insert?_eq_some.mp hins).2
        have hadded : AddedBy w (.commitSend i createdAt)
            (.sent d.conversation.id d.id d.now d.request.isPrivate) [draftMessage d createdAt] :=
          .send hcall
        simp only [Entry.conversationId] at hc
        subst hc
        rcases hconv with ⟨hprivate, hsame⟩ | ⟨hpublic, hsome, hupdate⟩
        · refine .quiet (sameTimeline_of_added hrows hadded hlog ?_) ?_ ?_ ?_
          · intro m hm _
            rw [List.mem_singleton.mp hm]
            exact hprivate
          · intro _ r _ d' hcall' _ hpublic
            rw [hcall] at hcall'
            cases hcall'
            rw [hprivate] at hpublic
            cases hpublic
          · intro r hr
            exact ⟨r, hsame ▸ hr, sameSummary_refl r⟩
          · intro hnone
            rw [hsame]
            exact hnone
        · obtain ⟨r, hr⟩ := Option.isSome_iff_exists.mp hsome
          have hext : Extends d.conversation.id w w' (draftMessage d createdAt) d.now := by
            refine extends_of_added hrows hadded hlog rfl hpublic ?_
            rw [hlog, hpublic]
            simp [timelineTime, draftMessage, Entry.sentNow]
          refine .sent rfl hchanged hcall rfl hpublic hr ?_ hext
          rw [hupdate, Table.find?_updateMany_of_some hr, if_pos]
          · rfl
          · exact decide_eq_true (Conversation.id_of_find? hr)
    | markRead hcall hdb =>
        simp only [Entry.conversationId] at hc
        subst hc
        obtain ⟨_, hsame, hconv⟩ := commitMarkRead_eq_some hdb
        exact effect_of_update (by rw [hsame, List.append_nil]) .markRead hlog (by simp)
          (fun _ _ _ => trivial) hconv fun r => ⟨rfl, rfl, rfl, rfl⟩
    | @update i ids createdAt ch _ hcall hdb =>
        simp only [Entry.conversationId] at hc
        subst hc
        obtain ⟨_, hins, hconv⟩ := commitUpdate_eq_some hdb
        refine effect_of_update (rows_of_insertAll hins) .update hlog ?_ (fun _ _ _ => trivial)
          hconv fun r => ⟨rfl, rfl, rfl, rfl⟩
        intro m hm
        obtain ⟨entry, _, rfl⟩ := List.mem_map.mp hm
        rfl
  · exact effect_of_other h hlog hc

/-- So does every step. -/
theorem effect_of_step {w w' : World} {a : Action} (c : Id) (h : step w a = some w') :
    Effect c w a w' := by
  rcases step_cases h with ⟨hdb, hlog⟩ | ⟨e, hlog, hcommit⟩
  · refine .quiet ⟨?_, ?_⟩ (fun hne => absurd hlog hne) ?_ ?_
    · intro m
      constructor
      · rintro ⟨hm, hc, hpublic⟩
        exact ⟨hdb ▸ hm, hc, hpublic⟩
      · rintro ⟨hm, hc, hpublic⟩
        exact ⟨hdb ▸ hm, hc, hpublic⟩
    · intro m _
      rw [hlog]
    · intro r hr
      exact ⟨r, hdb ▸ hr, sameSummary_refl r⟩
    · intro hnone
      rw [hdb]
      exact hnone
  · exact effect_of_commit hcommit hlog

/-! ## The invariant -/

/-- The conversation a call has read and still holds. -/
def Call.read? : Call → Option Conversation
  | .resolved _ read => read
  | .writing _ read _ => read
  | _ => none

/-- What a call holds was held before, or is read in this step. -/
theorem read_of_step {w w' : World} {a : Action} {j : CallId} {read : Conversation}
    (h : step w a = some w') (hj : (w'.call j).read? = some read) :
    (∃ i, (w.call i).read? = some read) ∨ w.db.conversations.find? read.id = some read := by
  have hfound : ∀ {p le found}, w.db.conversations.Selects p le 1 found →
      found.head? = some read → w.db.conversations.find? read.id = some read := by
    intro p le found hsel hhead
    have hmem := (hsel.selected read (List.mem_of_head? hhead)).1
    exact Table.find?_eq_some.mpr ⟨hmem, Conversation.mem_keys.mpr rfl⟩
  rcases call_of_step (fun call => call.read? = some read) h hj with hold | ⟨_, c, hmoved, hread⟩
  · exact Or.inl ⟨j, hold⟩
  · cases hmoved with
    | readOpen _ hsel => exact Or.inr (hfound hsel hread)
    | readThread _ hsel => exact Or.inr (hfound hsel hread)
    | readConversation _ =>
        simp only [Call.read?] at hread
        rw [Conversation.id_of_find? hread]
        exact Or.inr hread
    | @readReplyTarget i tx _ hcall => exact Or.inl ⟨i, by rw [hcall]; exact hread⟩
    | _ => cases hread

/-- What holds between the steps. -/
structure SummaryInv (c : Id) (w : World) : Prop where
  homed : ∀ m, Shown c w m → ∃ r, w.db.conversations.find? c = some r
  behind : ∀ i read, (w.call i).read? = some read → read.id = c →
    ∃ r, w.db.conversations.find? c = some r ∧ Behind read r
  summary : SummaryMatches c w

section Step

variable {c : Id} {w w' : World} {a : Action}

/-- A conversation without a row has no message, and any row that is null
summarises it. -/
theorem summarised_of_missing (hhomed : ∀ m, Shown c w m → ∃ r, w.db.conversations.find? c = some r)
    (hnone : w.db.conversations.find? c = none) {r : Conversation} (hlast : r.lastMessageAt = none)
    (hinbound : r.lastInboundAt = none) : Summarised c w r where
  lastMessageAt := by
    rw [hlast]
    refine Set.eq_empty_iff_forall_notMem.mpr ?_
    rintro t ⟨m, hm, _⟩
    obtain ⟨r, hr⟩ := hhomed m hm
    rw [hnone] at hr
    cases hr
  preview t ht := by
    rw [hlast] at ht
    cases ht
  lastInboundAt := by
    rw [hinbound]
    refine Set.eq_empty_iff_forall_notMem.mpr ?_
    rintro t ⟨m, hm, _⟩
    obtain ⟨r, hr⟩ := hhomed m hm
    rw [hnone] at hr
    cases hr

theorem homed_step (hI : SummaryInv c w) (he : Effect c w a w') {m : Message}
    (hm : Shown c w' m) : ∃ r, w'.db.conversations.find? c = some r := by
  cases he with
  | quiet hsame _ hrow _ =>
      obtain ⟨r, hr⟩ := hI.homed m ((hsame.shown m).mp hm)
      obtain ⟨r', hr', _⟩ := hrow r hr
      exact ⟨r', hr'⟩
  | ingested _ _ _ _ _ hr' _ | created _ _ _ _ hr' _ | sent _ _ _ _ _ _ hr' _ => exact ⟨_, hr'⟩

/-- In order, the times of a row only grow. -/
theorem behind_of_effect (he : Effect c w a w') (horder : InOrder c w a w') {r : Conversation}
    (hr : w.db.conversations.find? c = some r) :
    ∃ r', w'.db.conversations.find? c = some r' ∧ Behind r r' := by
  cases he with
  | quiet _ _ hrow _ =>
      obtain ⟨r', hr', hsame⟩ := hrow r hr
      refine ⟨r', hr', ⟨?_, ?_⟩⟩
      · rw [hsame.lastMessageAt]
        exact (Behind.refl r).lastMessageAt
      · rw [hsame.lastInboundAt]
        exact (Behind.refl r).lastInboundAt
  | @ingested i _ _ _ tx read _ replyTo ha hlog hcall hread hr1 hr' _ =>
      rw [hr] at hr1
      cases hr1
      subst ha
      obtain ⟨hlatest, hinbound⟩ := horder hlog r hr tx read replyTo hcall hread
      refine ⟨_, hr', ⟨?_, ?_⟩⟩
      · by_cases h : isLatest read tx.createdAt = true
        · simp only [counted, h, if_true]
          exact fun s hs => ⟨_, rfl, hlatest h s hs⟩
        · simp only [counted, h]
          exact (Behind.refl r).lastMessageAt
      · by_cases h : isLatestInbound read tx.createdAt = true
        · simp only [counted, h, if_true]
          exact fun s hs => ⟨_, rfl, hinbound h s hs⟩
        · simp only [counted, h]
          exact (Behind.refl r).lastInboundAt
  | created _ hnone _ _ _ _ =>
      rw [hnone] at hr
      cases hr
  | @sent i _ d _ ha hlog hcall hd hpublic hr1 hr' _ =>
      rw [hr] at hr1
      cases hr1
      subst ha
      have hle := horder hlog r hr d hcall hd hpublic
      exact ⟨_, hr', ⟨fun s hs => ⟨_, rfl, hle s hs⟩, (Behind.refl r).lastInboundAt⟩⟩

/-- In order, the summary is kept. -/
theorem summaryMatches_of_inOrder (hI : SummaryInv c w) (he : Effect c w a w')
    (horder : InOrder c w a w') : SummaryMatches c w' := by
  cases he with
  | quiet hsame _ hrow hnone =>
      refine ⟨fun m hm => ?_, fun r' hr' => ?_⟩
      · have hold := (hsame.shown m).mp hm
        rw [hsame.kept m hold]
        exact hI.summary.timed m hold
      · cases hr : w.db.conversations.find? c with
        | none =>
            rw [hnone hr] at hr'
            cases hr'
        | some r =>
            obtain ⟨r1, hr1, h⟩ := hrow r hr
            rw [hr'] at hr1
            cases hr1
            exact hsame.summarised (hI.summary.summarised r hr) h.lastMessageAt h.preview
              h.direction h.lastInboundAt
  | @ingested i _ _ _ tx read r replyTo ha hlog hcall hread hr hr' hext =>
      subst ha
      obtain ⟨hlatest, hinbound⟩ := horder hlog r hr tx read replyTo hcall hread
      obtain ⟨r1, hr1, hbehind⟩ := hI.behind i read (by rw [hcall]; rfl) hread
      rw [hr] at hr1
      cases hr1
      refine ⟨timed_of_extends hI.summary hext, fun r1 hr1 => ?_⟩
      rw [hr'] at hr1
      cases hr1
      exact summarised_counted (hI.summary.summarised r hr) hext rfl rfl hbehind hlatest hinbound
  | @created tx replyTo fresh _ hnone hlast hinbound hr' hext =>
      refine ⟨timed_of_extends hI.summary hext, fun r1 hr1 => ?_⟩
      rw [hr'] at hr1
      cases hr1
      have hfresh := summarised_of_missing hI.homed hnone hlast hinbound
      exact summarised_counted hfresh hext rfl rfl (Behind.refl fresh)
        (fun _ => by rw [hlast]; exact Lib.notBelow_none _)
        (fun _ => by rw [hinbound]; exact Lib.notBelow_none _)
  | @sent i _ d r ha hlog hcall hd hpublic hr hr' hext =>
      subst ha
      refine ⟨timed_of_extends hI.summary hext, fun r1 hr1 => ?_⟩
      rw [hr'] at hr1
      cases hr1
      exact (summarised_answered_iff (hI.summary.summarised r hr) hext rfl).mpr
        (horder hlog r hr d hcall hd hpublic)

/-- A step that keeps the summary is in order. -/
theorem inOrder_of_summaryMatches (hI : SummaryInv c w) (he : Effect c w a w')
    (hmatch : SummaryMatches c w') : InOrder c w a w' := by
  cases he with
  | quiet _ horder _ _ => exact horder
  | created horder _ _ _ _ _ => exact horder
  | @ingested i _ _ _ tx read r replyTo ha hlog hcall hread hr hr' hext =>
      subst ha
      intro _ r1 hr1 tx1 read1 replyTo1 hcall1 _
      rw [hr] at hr1
      cases hr1
      rw [hcall] at hcall1
      cases hcall1
      exact notBelow_of_counted (hI.summary.summarised r hr) hext rfl rfl
        (hmatch.summarised _ hr')
  | @sent i _ d r ha hlog hcall hd hpublic hr hr' hext =>
      subst ha
      intro _ r1 hr1 d1 hcall1 _ _
      rw [hr] at hr1
      cases hr1
      rw [hcall] at hcall1
      cases hcall1
      exact (summarised_answered_iff (hI.summary.summarised r hr) hext rfl).mp
        (hmatch.summarised _ hr')

theorem summaryInv_step (hI : SummaryInv c w) (h : step w a = some w') (horder : InOrder c w a w') :
    SummaryInv c w' where
  homed _ hm := homed_step hI (effect_of_step c h) hm
  behind j read hj hread := by
    have he := effect_of_step c h
    rcases read_of_step h hj with ⟨i, hold⟩ | hnow
    · obtain ⟨r, hr, hbehind⟩ := hI.behind i read hold hread
      obtain ⟨r', hr', hgrown⟩ := behind_of_effect he horder hr
      exact ⟨r', hr', hbehind.trans hgrown⟩
    · rw [hread] at hnow
      exact behind_of_effect he horder hnow
  summary := summaryMatches_of_inOrder hI (effect_of_step c h) horder

end Step

theorem summaryInv_init (c : Id) : SummaryInv c World.init where
  homed m hm := by cases hm.stored
  behind i read hi := by cases hi
  summary := ⟨fun m hm => (List.not_mem_nil hm.stored).elim, fun r hr => by cases hr⟩

/-- In every run the summary matches the timeline exactly as long as the writes
are in order. -/
theorem along_summaryMatches_iff (c : Id) (as : List Action) :
    machine.Along (fun _ _ w' => SummaryMatches c w') World.init as ↔
      machine.Along (InOrder c) World.init as := by
  refine Machine.along_iff_guarded (I := SummaryInv c) ?_ ?_ (summaryInv_init c)
  · intro w a w' hI h
    exact ⟨inOrder_of_summaryMatches hI (effect_of_step c h),
      summaryMatches_of_inOrder hI (effect_of_step c h)⟩
  · intro w a w' hI h horder
    exact summaryInv_step hI h horder

/-! ## A reply to a message from the future -/

/-- A provider stamps a visitor's message some minutes ahead, which an ingest
accepts, and an agent answers at once. -/
def answeredEarly : List Action :=
  exampleIngest 0 (exampleRequest "e1" "p1" 200000) "c" 2 [] ++
    [.send 1 ⟨"workspace", "member", "Ann", true, true⟩ exampleChannel "c" { text := "Hi" } "m" 3,
      .commitSend 1 3]

/-- The answer takes `lastMessageAt` back below the visitor's message. -/
theorem not_summaryMatches :
    ¬ ∀ c as w, machine.run World.init as = some w → SummaryMatches c w := by
  intro h
  have hview : (machine.run World.init answeredEarly).map (fun w =>
      ((w.db.conversations.find? "c").map Conversation.lastMessageAt,
        (w.db.messages.find? (.id "e1")).map fun m =>
          (m.conversationId, m.isPrivate, timelineTime w.log m)))
        = some (some (some 3), some ("c", false, some 200000)) := by decide
  obtain ⟨w, hw, hpair⟩ := Option.map_eq_some_iff.mp hview
  rw [Prod.mk.injEq] at hpair
  obtain ⟨r, hr, hlast⟩ := Option.map_eq_some_iff.mp hpair.1
  obtain ⟨m, hm, hmessage⟩ := Option.map_eq_some_iff.mp hpair.2
  simp only [Prod.mk.injEq] at hmessage
  obtain ⟨hc, hpublic, htime⟩ := hmessage
  have hshown : Shown "c" w m := ⟨(Table.find?_eq_some.mp hm).1, hc, hpublic⟩
  have hgreatest := ((h "c" answeredEarly w hw).summarised r hr).lastMessageAt
  rw [hlast] at hgreatest
  have hle : (200000 : Date) ≤ 3 := hgreatest.2 ⟨m, hshown, htime⟩
  exact absurd hle (by decide)

end Vynor.Conversations
