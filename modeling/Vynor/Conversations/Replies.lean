import Vynor.Conversations.Requests
import Vynor.Conversations.Threads
import Vynor.Lib.Forest

/-!
# Conversations of reply trees

The messages of a channel form a forest: each names the one it replies to, and as
its thread a message above it, or itself where it is a root.  Each is ingested
after the message it replies to has been stored.

Only a root starts a conversation, and the conversation carries its id.  So a
lookup by the id of another message finds nothing, and goes on to the stored
message that is replied to.  Either way a message goes to the conversation of its
root.
-/

namespace Vynor.Conversations

open Lib (Table Machine Forest)

section Replies

variable {ι : Type*} (F : Forest ι) (name : ι → String) (channelId : Id)

/-- The request is for this message of the forest. -/
structure IngestRequest.Posts (request : IngestRequest) (x : ι) : Prop where
  channel : request.channel.id = channelId
  messageId : request.message.providerMessageId = name x
  reply : request.message.replyTarget = (F.parent x).map name
  thread : ∃ t, request.thread? = some (name t) ∧ (t = x ∧ F.parent x = none ∨ F.Ancestor t x)

/-- The message is stored. -/
def IsStored (db : Db) (x : ι) : Prop :=
  (db.messages.find? (.provider channelId (name x))).isSome = true

/-- Every message of the channel is one of the forest, and comes after the one it
replies to. -/
def PostsInOrder (w : World) (a : Action) (_ : World) : Prop :=
  ∀ i request, a = .ingest i request → request.channel.id = channelId →
    ∃ x, request.Posts F name channelId x ∧
      ∀ p, F.parent x = some p → IsStored name channelId w.db p

/-- The conversation with this id carries the root of the message. -/
def InTree (db : Db) (x : ι) (id : Id) : Prop :=
  ∃ r, F.RootOf r x ∧ InThread db channelId (name r) id

/-- What a transaction for a message has read: a conversation of its tree, or
none where it is a root. -/
def TreeRead (db : Db) (x : ι) : Option Conversation → Prop
  | some c => InTree F name channelId db x c.id
  | none => F.parent x = none

/-- What a call has read at the point where it stands. -/
def Call.Reads (db : Db) : Call → Prop
  | .threading tx target => tx.request.message.replyTarget = some target
  | .targeted tx id => ∀ x, tx.request.Posts F name channelId x → InTree F name channelId db x id
  | .resolved tx read =>
      ∀ x, tx.request.Posts F name channelId x → TreeRead F name channelId db x read
  | .writing tx read _ =>
      ∀ x, tx.request.Posts F name channelId x → TreeRead F name channelId db x read
  | _ => True

/-- Conversations and stored messages follow the forest. -/
structure Replied (w : World) : Prop where
  asked : ∀ i request, (w.call i).request? = some request → request.channel.id = channelId →
    ∃ x, request.Posts F name channelId x ∧ ∀ p, F.parent x = some p → IsStored name channelId w.db p
  reads : ∀ i, (w.call i).Reads F name channelId w.db
  stored : ∀ x m, w.db.messages.find? (.provider channelId (name x)) = some m →
    InTree F name channelId w.db x m.conversationId
  started : ∀ x, ∀ c ∈ w.db.conversations.rows, inThread channelId (name x) c = true →
    F.parent x = none ∧ ∃ m, w.db.messages.find? (.provider channelId (name x)) = some m ∧
      m.conversationId = c.id

end Replies

section Step

variable {ι : Type*} {F : Forest ι} {name : ι → String} {channelId : Id} {w w' : World} {a : Action}
  {request : IngestRequest} {x y : ι}

/-- A request is for one message. -/
theorem IngestRequest.Posts.unique (hname : Function.Injective name)
    (hx : request.Posts F name channelId x) (hy : request.Posts F name channelId y) : x = y :=
  hname (hx.messageId.symm.trans hy.messageId)

/-- A root names itself as its thread. -/
theorem IngestRequest.Posts.thread_of_root (h : request.Posts F name channelId x)
    (hroot : F.parent x = none) : request.thread? = some (name x) := by
  obtain ⟨t, ht, ⟨rfl, _⟩ | habove⟩ := h.thread
  · exact ht
  · exact absurd habove (Forest.not_ancestor_of_root hroot)

/-- A thread that is a root is the root of the message. -/
theorem IngestRequest.Posts.rootOf_thread (h : request.Posts F name channelId x) {threadId : String}
    (hthread : request.thread? = some threadId) :
    ∃ t, threadId = name t ∧ (F.parent t = none → F.RootOf t x) := by
  obtain ⟨t, ht, hwhere⟩ := h.thread
  rw [hthread] at ht
  cases ht
  refine ⟨t, rfl, fun hroot => ?_⟩
  rcases hwhere with ⟨rfl, _⟩ | habove
  · exact Forest.rootOf_self hroot
  · exact Forest.rootOf_ancestor habove hroot

theorem isStored_kept (h : step w a = some w') (hx : IsStored name channelId w.db x) :
    IsStored name channelId w'.db x := by
  obtain ⟨m, hm⟩ := Option.isSome_iff_exists.mp hx
  exact Option.isSome_iff_exists.mpr ⟨m, message_kept h hm⟩

theorem inTree_kept (h : step w a = some w') {id : Id} (hx : InTree F name channelId w.db x id) :
    InTree F name channelId w'.db x id := by
  obtain ⟨r, hr, hin⟩ := hx
  exact ⟨r, hr, inThread_kept h hin⟩

theorem treeRead_kept (h : step w a = some w') {read : Option Conversation}
    (hx : TreeRead F name channelId w.db x read) : TreeRead F name channelId w'.db x read := by
  cases read with
  | none => exact hx
  | some c => exact inTree_kept h hx

theorem reads_kept (h : step w a = some w') {c : Call} (hc : c.Reads F name channelId w.db) :
    c.Reads F name channelId w'.db := by
  cases c with
  | targeted => exact fun x hx => inTree_kept h (hc x hx)
  | resolved | writing => exact fun x hx => treeRead_kept h (hc x hx)
  | _ => exact hc

/-- A reply is in the tree of the message it replies to. -/
theorem inTree_of_parent {db : Db} {p : ι} (hp : F.parent x = some p) {id : Id}
    (h : InTree F name channelId db p id) : InTree F name channelId db x id := by
  obtain ⟨r, hr, hin⟩ := h
  exact ⟨r, (Forest.rootOf_child hp).mpr hr, hin⟩

/-! ## The point a call has reached -/

theorem asked_step (hw : Replied F name channelId w) (h : step w a = some w')
    (hgood : PostsInOrder F name channelId w a w') {i : CallId}
    (hi : (w'.call i).request? = some request) (hchannel : request.channel.id = channelId) :
    ∃ x, request.Posts F name channelId x ∧
      ∀ p, F.parent x = some p → IsStored name channelId w'.db p := by
  have hold : ∃ x, request.Posts F name channelId x ∧
      ∀ p, F.parent x = some p → IsStored name channelId w.db p := by
    rcases request?_of_step h hi with hold | ⟨rfl, _⟩
    · exact hw.asked i request hold hchannel
    · exact hgood i request rfl hchannel
  obtain ⟨x, hx, hparent⟩ := hold
  exact ⟨x, hx, fun p hp => isStored_kept h (hparent p hp)⟩

/-- What a thread lookup has found. -/
theorem treeRead_of_readThread (hw : Replied F name channelId w) {tx : IngestTx}
    {threadId : String} {found : List Conversation} (hx : tx.request.Posts F name channelId x)
    (hthread : tx.request.thread? = some threadId)
    (hfound : w.db.conversations.Selects (inThread tx.request.channel.id threadId) newestFirst 1
      found) (hreads : afterThread tx found = .resolved tx found.head?) :
    TreeRead F name channelId w.db x found.head? := by
  cases found with
  | cons c rest =>
      obtain ⟨hmem, hin⟩ := hfound.selected c List.mem_cons_self
      obtain ⟨t, rfl, hroot⟩ := hx.rootOf_thread hthread
      rw [hx.channel] at hin
      exact ⟨t, hroot (hw.started t c hmem hin).1, c, hmem, rfl, hin⟩
  | nil =>
      cases hparent : F.parent x with
      | none => exact hparent
      | some p =>
          have hreply := hx.reply
          rw [hparent, Option.map_some] at hreply
          rw [afterThread, hreply] at hreads
          cases hreads

theorem readTarget_of_step {i : CallId} (h : step w (.readTarget i) = some w') :
    ∃ tx target, w.call i = .threading tx target ∧ w' = w.setCall i
      (match w.db.messages.find? (.provider tx.request.channel.id target) with
        | some m => .targeted tx m.conversationId
        | none => .resolved tx none) := by
  simp only [step] at h
  split at h
  next tx target hcall =>
    refine ⟨tx, target, hcall, ?_⟩
    split at h <;> cases h <;> simp [*]
  · cases h

/-- What the lookup of the message replied to leads to. -/
theorem reads_of_readTarget (hw : Replied F name channelId w) (hname : Function.Injective name)
    {i : CallId} (h : step w (.readTarget i) = some w') :
    (w'.call i).Reads F name channelId w.db := by
  obtain ⟨tx, target, hcall, rfl⟩ := readTarget_of_step h
  rw [World.setCall_self]
  have hreply := hw.reads i
  rw [hcall] at hreply
  have hparent : ∀ x, tx.request.Posts F name channelId x →
      ∃ p, F.parent x = some p ∧ name p = target := by
    intro x hx
    have hsome := hx.reply
    rw [hreply] at hsome
    exact Option.map_eq_some_iff.mp hsome.symm
  split
  next m hm =>
    intro x hx
    obtain ⟨p, hp, rfl⟩ := hparent x hx
    rw [hx.channel] at hm
    exact inTree_of_parent hp (hw.stored p m hm)
  next hnone =>
    intro x hx
    obtain ⟨p, hp, rfl⟩ := hparent x hx
    obtain ⟨y, hy, hstored⟩ := hw.asked i tx.request (by rw [hcall]; rfl) hx.channel
    obtain rfl := hx.unique hname hy
    have hstored := hstored p hp
    rw [IsStored, ← hx.channel, hnone] at hstored
    cases hstored

theorem reads_step (hw : Replied F name channelId w) (hname : Function.Injective name)
    (h : step w a = some w') (i : CallId) : (w'.call i).Reads F name channelId w'.db := by
  refine reads_kept h ?_
  by_cases hi : i = a.call
  · subst hi
    have hmoved := step_moved h
    generalize hc : w'.call a.call = c at hmoved
    cases hmoved with
    | @readOpen i found tx hcall _ =>
        obtain ⟨tx', hcall', hnone, _⟩ := readOpen_of_step h
        rw [hcall] at hcall'
        cases hcall'
        intro x hx
        obtain ⟨t, ht, _⟩ := hx.thread
        rw [hnone] at ht
        cases ht
    | @readThread i found tx _ hcall _ =>
        obtain ⟨tx', threadId, hcall', hthread, hfound, rfl⟩ := readThread_of_step h
        rw [hcall] at hcall'
        cases hcall'
        rw [Action.call, World.setCall_self] at hc
        exact fun x hx => treeRead_of_readThread hw hx hthread hfound hc
    | @follows i tx target hcall =>
        obtain ⟨tx', threadId, hcall', _, _, rfl⟩ := readThread_of_step h
        rw [hcall] at hcall'
        cases hcall'
        rw [Action.call, World.setCall_self, afterThread] at hc
        split at hc
        next target' htarget =>
          cases hc
          exact htarget
        · cases hc
    | readTarget | noTarget =>
        rw [← hc]
        exact reads_of_readTarget hw hname h
    | @readConversation i tx conversationId hcall =>
        have hreads := hw.reads i
        rw [hcall] at hreads
        intro x hx
        obtain ⟨r, hr, c, hmem, rfl, hin⟩ := hreads x hx
        rw [Conversation.find?_of_mem hmem]
        exact ⟨r, hr, c, hmem, rfl, hin⟩
    | @readReplyTarget i tx read hcall =>
        have hreads := hw.reads i
        rw [hcall] at hreads
        exact hreads
    | _ => trivial
  · rw [step_call_other h hi]
    exact hw.reads i

/-! ## Commits -/

/-- A root that starts a conversation carries its id into it. -/
theorem inThread_of_root {i : CallId} {tx : IngestTx} {c' : Conversation}
    (hfits : ∀ x, (codeUnits (name x)).length ≤ 512) (hstarts : Starts w a i tx c')
    (hx : tx.request.Posts F name channelId x) (hroot : F.parent x = none) :
    inThread channelId (name x) c' = true := by
  have hin := inThread_of_starts hstarts (hx.thread_of_root hroot) (hfits x)
  rwa [hx.channel] at hin

/-- Only a root starts a conversation. -/
theorem root_of_starts (hw : Replied F name channelId w) {i : CallId} {tx : IngestTx}
    {c' : Conversation} (hstarts : Starts w a i tx c') (hx : tx.request.Posts F name channelId x) :
    F.parent x = none := by
  obtain ⟨replyTo, hcall⟩ := hstarts.call
  have hreads := hw.reads i
  rw [hcall] at hreads
  exact hreads x hx

theorem stored_step (hw : Replied F name channelId w) (hname : Function.Injective name)
    (hfits : ∀ x, (codeUnits (name x)).length ≤ 512) (h : step w a = some w') {m : Message}
    (hm : w'.db.messages.find? (.provider channelId (name x)) = some m) :
    InTree F name channelId w'.db x m.conversationId := by
  cases hbefore : w.db.messages.find? (.provider channelId (name x)) with
  | some m₀ =>
      rw [message_kept h hbefore] at hm
      cases hm
      exact inTree_kept h (hw.stored x m hbefore)
  | none =>
      obtain ⟨i, request, result, hins, hkey⟩ := inserts_of_new h hbefore hm
      obtain ⟨tx, read, replyTo, _, _, _, _, hcall, rfl, _, c', hc', hid, hwhich⟩ :=
        commit_of_inserts h hins
      obtain ⟨m', hm', _, hmid⟩ := hins.stored
      rw [hkey, hm] at hm'
      cases hm'
      rw [IngestRequest.key, MessageKey.provider.injEq] at hkey
      obtain ⟨y, hy, _⟩ := hw.asked i tx.request (by rw [hcall]; rfl) hkey.1
      obtain rfl : y = x := hname (hy.messageId.symm.trans hkey.2)
      rw [hmid, ← hid]
      rcases hwhich with ⟨c, rfl, hcid⟩ | hstarts
      · have hreads := hw.reads i
        rw [hcall] at hreads
        rw [← hcid]
        exact inTree_kept h (hreads y hy)
      · have hroot := root_of_starts hw hstarts hy
        exact ⟨y, Forest.rootOf_self hroot, c', hc', rfl, inThread_of_root hfits hstarts hy hroot⟩

theorem started_step (hw : Replied F name channelId w) (hname : Function.Injective name)
    (hfits : ∀ x, (codeUnits (name x)).length ≤ 512) (h : step w a = some w') {c' : Conversation}
    (hc' : c' ∈ w'.db.conversations.rows) (hin : inThread channelId (name x) c' = true) :
    F.parent x = none ∧ ∃ m, w'.db.messages.find? (.provider channelId (name x)) = some m ∧
      m.conversationId = c'.id := by
  rcases conversation_of_step h hc' with ⟨c, hc, hchange⟩ | ⟨i, tx, hstarts⟩
  · have hsame := sameThread_of_change hchange
    obtain ⟨hroot, m, hm, hmid⟩ :=
      hw.started x c hc ((hsame.inThread_iff channelId (name x)).mp hin)
    exact ⟨hroot, m, message_kept h hm, hmid.trans hsame.id.symm⟩
  · obtain ⟨m, hm, hmid⟩ := stored_of_starts h hc' hstarts
    obtain ⟨replyTo, hcall⟩ := hstarts.call
    have hchannel : tx.request.channel.id = channelId :=
      hstarts.channel.symm.trans (inThread_iff.mp hin).1
    obtain ⟨y, hy, _⟩ := hw.asked i tx.request (by rw [hcall]; rfl) hchannel
    have hroot := root_of_starts hw hstarts hy
    have hiny := inThread_of_root hfits hstarts hy hroot
    have hunits : codeUnits (name y) = codeUnits (name x) :=
      Option.some.inj ((inThread_iff.mp hiny).2.symm.trans (inThread_iff.mp hin).2)
    obtain rfl : y = x := hname (codeUnits_injective hunits)
    rw [IngestRequest.key, hchannel, hy.messageId] at hm
    exact ⟨hroot, m, hm, hmid⟩

theorem replied_step (hname : Function.Injective name)
    (hfits : ∀ x, (codeUnits (name x)).length ≤ 512) (hw : Replied F name channelId w)
    (h : step w a = some w') (hgood : PostsInOrder F name channelId w a w') :
    Replied F name channelId w' where
  asked _ _ hi hchannel := asked_step hw h hgood hi hchannel
  reads i := reads_step hw hname h i
  stored _ _ hm := stored_step hw hname hfits h hm
  started _ _ hc hin := started_step hw hname hfits h hc hin

/-! ## The result -/

/-- No call is under way, and the channel has no message and no conversation of
the forest. -/
structure RepliesStart (name : ι → String) (channelId : Id) (w : World) : Prop where
  idle : w.Idle
  messages : ∀ x, w.db.messages.find? (.provider channelId (name x)) = none
  conversations : ∀ x, ∀ c ∈ w.db.conversations.rows, inThread channelId (name x) c = false

theorem replied_of_start (h : RepliesStart name channelId w) : Replied F name channelId w where
  asked i request hi := by
    rw [h.idle i] at hi
    cases hi
  reads i := by
    rw [h.idle i]
    trivial
  stored x m hm := by
    rw [h.messages x] at hm
    cases hm
  started x c hc hin := by
    rw [h.conversations x c hc] at hin
    cases hin

/-- Two messages are in one conversation where they are in one tree, and only
there. -/
theorem Replied.conversationId_iff (hw : Replied F name channelId w)
    (hname : Function.Injective name) {mx my : Message}
    (hx : w.db.messages.find? (.provider channelId (name x)) = some mx)
    (hy : w.db.messages.find? (.provider channelId (name y)) = some my) :
    mx.conversationId = my.conversationId ↔ F.SameTree x y := by
  obtain ⟨r, hr, b, hb, hbid, hbin⟩ := hw.stored x mx hx
  obtain ⟨s, hs, c, hc, hcid, hcin⟩ := hw.stored y my hy
  rw [Forest.sameTree_iff hr hs]
  constructor
  · intro hsame
    obtain rfl := Conversation.eq_of_id hb hc (by rw [hbid, hcid, hsame])
    have hunits : codeUnits (name r) = codeUnits (name s) :=
      Option.some.inj ((inThread_iff.mp hbin).2.symm.trans (inThread_iff.mp hcin).2)
    exact hname (codeUnits_injective hunits)
  · rintro rfl
    obtain ⟨_, m, hm, hmb⟩ := hw.started r b hb hbin
    obtain ⟨_, m', hm', hmc⟩ := hw.started r c hc hcin
    rw [hm] at hm'
    cases hm'
    rw [← hbid, ← hcid, ← hmb, ← hmc]

/-- Every run follows the forest. -/
theorem replied_of_run {as : List Action} (hname : Function.Injective name)
    (hfits : ∀ x, (codeUnits (name x)).length ≤ 512) (hw : RepliesStart name channelId w)
    (hgood : machine.Along (PostsInOrder F name channelId) w as)
    (hr : machine.run w as = some w') : Replied F name channelId w' :=
  Machine.invariant_along (M := machine) (P := PostsInOrder F name channelId)
    (fun _ _ _ hw hs hgood => replied_step hname hfits hw hs hgood) (replied_of_start hw) hgood hr

end Step

end Vynor.Conversations
