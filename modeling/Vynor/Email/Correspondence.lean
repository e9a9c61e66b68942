import Vynor.Conversations.Replies
import Vynor.Email.Desk

/-!
# A correspondence stays in its conversation

Customers write to a mailbox, agents reply, and customers answer the replies and
one another.  A mail program names the mail it answers in `In-Reply-To`, and
begins the references, where it writes any, with the first reference of that mail.
A conversation carries the id of the mail that started it, and every other id
that a mail names is the one of a stored message.  So an answer is stored in the
conversation of the mail it answers, whichever of the two lookups finds it, and a
reply names mails of its own conversation (`corresponds_of_run`).
-/

namespace Vynor.Email

open Lib (Table Machine)
open Conversations (Call CallId IngestRequest)
open EmailChannel (Kept)

section Correspondence

variable {ι : Type*} (js : Runtime) (mailbox : EmailChannel) (mail : ι → EmailPayload)

/-! ## Mails and answers -/

/-- The customers' mails have ids of their own, which fit their column. -/
structure Letters : Prop where
  distinct : Function.Injective fun x => (mail x).providerMessageId
  nonempty : ∀ x, (mail x).providerMessageId ≠ ""
  fits : ∀ x, (codeUnits (mail x).providerMessageId).length ≤ 512

/-- The mail names no other one. -/
def EmailPayload.IsFirst (payload : EmailPayload) : Prop :=
  payload.inReplyTo = none ∧ payload.usedReferences = []

/-- The reference that an answer to the mail begins with. -/
def SentMail.head (sent : SentMail) : String :=
  (sent.mail.references.head?.or sent.mail.inReplyTo).getD sent.providerMessageId

/-- A mail that is stored under its id, and the reference that an answer to it
begins with. -/
inductive Known (s : Desk) : String → String → Prop where
  | letter {x : ι} {m : Message} :
      s.db.messages.find? (.provider mailbox.channelId (mail x).providerMessageId) = some m →
      m.direction = .inbound → Known s (mail x).providerMessageId (mail x).threadId
  | reply {sent : SentMail} {m : Message} : sent ∈ s.sent →
      s.db.messages.find? (.provider mailbox.channelId sent.providerMessageId) = some m →
      m.id = sent.replyId → Known s sent.providerMessageId sent.head

/-- The mail answers one that is stored. -/
def Answers (s : Desk) (payload : EmailPayload) : Prop :=
  ∃ id head, Known mailbox mail s id head ∧ payload.inReplyTo = some id ∧
    (payload.usedReferences = [] ∨ payload.usedReferences.head? = some head)

/-- What arrives on the channel are the customers' mails, each the first of its
thread or an answer to a stored mail, and the mail server keeps the Message-ID of
a reply. -/
def Ordinary (s : Desk) (a : DeskAction) (_ : Desk) : Prop :=
  (∀ i request, a = .chat (.ingest i request) → request.channel.id = mailbox.channelId →
    ∃ x now, .message request.message ∈
        normalizeInbound js mailbox.account.emailAddress now (mail x) ∧
      ((mail x).IsFirst ∨ Answers mailbox mail s (mail x))) ∧
  ∀ i info now intent, a = .accepted i info now → s.sending i = .calling intent →
    ∀ id ∈ info.messageId, id = mailbox.messageIdOf intent.intentId

/-- An answer is in the conversation of the mail it answers, and a reply names
mails of its own conversation only. -/
structure Corresponds (s : Desk) : Prop where
  answers : ∀ x m id,
    s.db.messages.find? (.provider mailbox.channelId (mail x).providerMessageId) = some m →
    m.direction = .inbound → (mail x).inReplyTo = some id →
    ∃ m', s.db.messages.find? (.provider mailbox.channelId id) = some m' ∧
      m'.conversationId = m.conversationId
  replies : ∀ sent ∈ s.sent, ∃ m, s.db.messages.find? (.id sent.replyId) = some m ∧
    ∀ id, id ∈ sent.mail.inReplyTo ∨ id ∈ sent.mail.references →
      ∃ m', s.db.messages.find? (.provider mailbox.channelId id) = some m' ∧
        m'.conversationId = m.conversationId

/-! ## The invariant -/

/-- A message of the channel is stored under this id, in this conversation. -/
def Stores (db : Conversations.Db) (id : String) (conversationId : Id) : Prop :=
  id ≠ "" ∧ ∃ m, db.messages.find? (.provider mailbox.channelId id) = some m ∧
    m.conversationId = conversationId

/-- The mails that the mail names are stored in this conversation. -/
def Due (db : Conversations.Db) (payload : EmailPayload) (conversationId : Id) : Prop :=
  ∃ id, payload.inReplyTo = some id ∧ Stores mailbox db id conversationId ∧
    Stores mailbox db payload.threadId conversationId

/-- The request is for this mail. -/
structure IsFor (request : IngestRequest) (payload : EmailPayload) : Prop where
  messageId : request.message.providerMessageId = payload.providerMessageId
  replyTarget : request.message.replyTarget = truthy payload.inReplyTo
  thread : request.message.threadId = some payload.threadId

/-- What a call has read at the point where it stands. -/
def Reads (db : Conversations.Db) : Call → Prop
  | .threading tx target => tx.request.message.replyTarget = some target
  | .targeted tx id => tx.request.channel.id = mailbox.channelId →
      ∀ x, IsFor tx.request (mail x) → Due mailbox db (mail x) id
  | .resolved tx (some c) => tx.request.channel.id = mailbox.channelId →
      ∀ x, IsFor tx.request (mail x) → (mail x).IsFirst ∨ Due mailbox db (mail x) c.id
  | .writing tx (some c) _ => tx.request.channel.id = mailbox.channelId →
      ∀ x, IsFor tx.request (mail x) → (mail x).IsFirst ∨ Due mailbox db (mail x) c.id
  | .resolved tx none => tx.request.channel.id = mailbox.channelId →
      ∀ x, IsFor tx.request (mail x) → (mail x).IsFirst
  | .writing tx none _ => tx.request.channel.id = mailbox.channelId →
      ∀ x, IsFor tx.request (mail x) → (mail x).IsFirst
  | _ => True

/-- The reply is a message of the channel, in this conversation. -/
def IsReplyIn (db : Conversations.Db) (replyId conversationId : Id) : Prop :=
  ∃ m, db.messages.find? (.id replyId) = some m ∧ m.providerAccountId = mailbox.channelId ∧
    m.direction = .outbound ∧ m.conversationId = conversationId

/-- The headers of a mail name mails that are stored in this conversation. -/
structure NamesIn (db : Conversations.Db) (options : MailOptions) (conversationId : Id) :
    Prop where
  references : ∀ id ∈ options.references, Stores mailbox db id conversationId
  inReplyTo : ∀ id ∈ options.inReplyTo, Stores mailbox db id conversationId

/-- What holds of a send at the point where it stands. -/
def SendOk (db : Conversations.Db) : Sending → Prop
  | .prepared reply => reply.channelType = .email ∧
      IsReplyIn mailbox db reply.message.id reply.conversation.id
  | .calling intent => ∃ c, IsReplyIn mailbox db intent.intentId c ∧
      ∀ text, NamesIn mailbox db (mailOptions mailbox.account intent text) c
  | .marking replyId providerMessageId _ => providerMessageId = mailbox.messageIdOf replyId ∧
      ∃ c, IsReplyIn mailbox db replyId c
  | .remarking replyId _ => (∃ c, IsReplyIn mailbox db replyId c) ∧
      ∃ m, db.messages.find? (.provider mailbox.channelId (mailbox.messageIdOf replyId)) = some m ∧
        m.id ≠ replyId
  | _ => True

/-- What holds of a mail that the server has taken. -/
def SentOk (db : Conversations.Db) (sent : SentMail) : Prop :=
  ∃ c, IsReplyIn mailbox db sent.replyId c ∧ NamesIn mailbox db sent.mail c

/-- Mails that name each other are together. -/
structure Together (s : Desk) : Prop where
  onChannel : Conversations.OnChannel s.chats
  own : ∀ m ∈ s.db.messages.rows, m.providerAccountId = mailbox.channelId →
    m.direction = .outbound → ∀ id ∈ m.providerMessageId, id = mailbox.messageIdOf m.id
  asked : ∀ i request, (s.chats.call i).request? = some request →
    request.channel.id = mailbox.channelId →
    ∃ x, IsFor request (mail x) ∧ ((mail x).IsFirst ∨ ∃ c, Due mailbox s.db (mail x) c)
  reads : ∀ i, Reads mailbox mail s.db (s.chats.call i)
  stored : ∀ x m,
    s.db.messages.find? (.provider mailbox.channelId (mail x).providerMessageId) = some m →
    m.direction = .inbound → (mail x).IsFirst ∨ Due mailbox s.db (mail x) m.conversationId
  threads : ∀ c ∈ s.db.conversations.rows, c.providerAccountId = mailbox.channelId →
    ∀ units, c.externalThreadId = some units →
    ∃ id, codeUnits id = units ∧ Stores mailbox s.db id c.id
  sends : ∀ i, SendOk mailbox s.db (s.sending i)
  sent : ∀ sent ∈ s.sent, SentOk mailbox s.db sent

end Correspondence

/-! ## Tables that grow -/

section Grows

variable {ι : Type*} {mailbox : EmailChannel} {mail : ι → EmailPayload} {db db' : Conversations.Db}

/-- Messages of the channel stay where they are found. -/
structure Grows (mailbox : EmailChannel) (db db' : Conversations.Db) : Prop where
  id : ∀ id m, db.messages.find? (.id id) = some m →
    ∃ m', db'.messages.find? (.id id) = some m' ∧ Kept m m'
  provider : ∀ id m, db.messages.find? (.provider mailbox.channelId id) = some m →
    ∃ m', db'.messages.find? (.provider mailbox.channelId id) = some m' ∧ Kept m m'

theorem grows_of_step {w w' : Conversations.World} {a : Conversations.Action}
    (h : Conversations.step w a = some w') : Grows mailbox w.db w'.db where
  id _ m hm := ⟨m, Conversations.message_kept h hm, .refl m⟩
  provider _ m hm := ⟨m, Conversations.message_kept h hm, .refl m⟩

theorem grows_of_rewrites {t : Messages} {f : Message → Message}
    (h : mailbox.Rewrites db.messages t f) : Grows mailbox db { db with messages := t } where
  id _ m hm := ⟨f m, h.find?_id hm, h.kept m⟩
  provider _ m hm := ⟨f m, h.find?_provider hm, h.kept m⟩

variable {id : String} {c replyId : Id} {payload : EmailPayload}

theorem Stores.unique {c' : Id} (h : Stores mailbox db id c) (h' : Stores mailbox db id c') :
    c = c' := by
  obtain ⟨_, m, hm, rfl⟩ := h
  obtain ⟨_, m', hm', rfl⟩ := h'
  rw [hm] at hm'
  cases hm'
  rfl

theorem Stores.mono (hg : Grows mailbox db db') (h : Stores mailbox db id c) :
    Stores mailbox db' id c := by
  obtain ⟨hne, m, hm, rfl⟩ := h
  obtain ⟨m', hm', hkept⟩ := hg.provider id m hm
  exact ⟨hne, m', hm', hkept.conversationId⟩

theorem Due.mono (hg : Grows mailbox db db') (h : Due mailbox db payload c) :
    Due mailbox db' payload c := by
  obtain ⟨id, hid, hanswered, hthread⟩ := h
  exact ⟨id, hid, hanswered.mono hg, hthread.mono hg⟩

theorem Reads.mono (hg : Grows mailbox db db') {call : Call}
    (h : Reads mailbox mail db call) : Reads mailbox mail db' call := by
  cases call with
  | targeted tx id => exact fun hchannel x hx => (h hchannel x hx).mono hg
  | resolved tx read | writing tx read replyTo =>
      cases read with
      | none => exact h
      | some c => exact fun hchannel x hx => (h hchannel x hx).imp_right (Due.mono hg)
  | _ => exact h

theorem IsReplyIn.mono (hg : Grows mailbox db db') (h : IsReplyIn mailbox db replyId c) :
    IsReplyIn mailbox db' replyId c := by
  obtain ⟨m, hm, hchannel, hout, rfl⟩ := h
  obtain ⟨m', hm', hkept⟩ := hg.id replyId m hm
  exact ⟨m', hm', hkept.providerAccountId.trans hchannel, hkept.direction.trans hout,
    hkept.conversationId⟩

theorem NamesIn.mono (hg : Grows mailbox db db') {options : MailOptions}
    (h : NamesIn mailbox db options c) : NamesIn mailbox db' options c where
  references id hid := (h.references id hid).mono hg
  inReplyTo id hid := (h.inReplyTo id hid).mono hg

theorem SendOk.mono (hg : Grows mailbox db db') {stage : Sending}
    (h : SendOk mailbox db stage) : SendOk mailbox db' stage := by
  cases stage with
  | prepared reply => exact ⟨h.1, h.2.mono hg⟩
  | calling intent =>
      obtain ⟨c, hreply, hnames⟩ := h
      exact ⟨c, hreply.mono hg, fun text => (hnames text).mono hg⟩
  | marking replyId providerMessageId sentAt => exact ⟨h.1, h.2.imp fun _ => IsReplyIn.mono hg⟩
  | remarking replyId sentAt =>
      obtain ⟨hreply, m, hm, hne⟩ := h
      obtain ⟨m', hm', hkept⟩ := hg.provider _ m hm
      exact ⟨hreply.imp fun _ => IsReplyIn.mono hg, m', hm', hkept.id.symm ▸ hne⟩
  | idle | ended => trivial

theorem SentOk.mono (hg : Grows mailbox db db') {sent : SentMail} (h : SentOk mailbox db sent) :
    SentOk mailbox db' sent := by
  obtain ⟨c, hreply, hnames⟩ := h
  exact ⟨c, hreply.mono hg, hnames.mono hg⟩

end Grows

/-! ## Sends -/

section Sends

variable {ι : Type*} {mailbox : EmailChannel} {mail : ι → EmailPayload} {s : Desk} {i : SendId}

/-- A table that is rewritten keeps mails together. -/
theorem together_rewrites {t : Messages} {f : Message → Message} (hs : Together mailbox mail s)
    (h : mailbox.Rewrites s.db.messages t f) : Together mailbox mail (s.setMessages t) where
  onChannel :=
    { messages := by
        intro m' hm'
        rw [show (s.setMessages t).db.messages.rows = s.db.messages.rows.map f from h.rows] at hm'
        obtain ⟨m, hm, rfl⟩ := List.mem_map.mp hm'
        rw [(h.kept m).conversationId, (h.kept m).providerAccountId]
        exact hs.onChannel.messages m hm
      calls := hs.onChannel.calls }
  own := by
    intro m' hm' hchannel hout id hid
    rw [show (s.setMessages t).db.messages.rows = s.db.messages.rows.map f from h.rows] at hm'
    obtain ⟨m, hm, rfl⟩ := List.mem_map.mp hm'
    have hchannel' := (h.kept m).providerAccountId.symm.trans hchannel
    rw [(h.kept m).id]
    rcases h.providerMessageId m hm hchannel' with hsame | ⟨_, _, hnew⟩
    · exact hs.own m hm hchannel' ((h.kept m).direction.symm.trans hout) id (hsame ▸ hid)
    · rw [hnew] at hid
      exact (Option.some.inj hid).symm
  asked j request hj hchannel := by
    obtain ⟨x, hx, hdue⟩ := hs.asked j request hj hchannel
    exact ⟨x, hx, hdue.imp_right fun hdue => hdue.imp fun _ => Due.mono (grows_of_rewrites h)⟩
  reads j := (hs.reads j).mono (grows_of_rewrites h)
  stored x m' hm' hin := by
    obtain ⟨m, hm, hkept⟩ := h.find?_inbound hm' hin
    rw [hkept.conversationId]
    exact (hs.stored x m hm (hkept.direction.symm.trans hin)).imp_right
      (Due.mono (grows_of_rewrites h))
  threads c hc hchannel units hunits := by
    obtain ⟨id, hid, hstores⟩ := hs.threads c hc hchannel units hunits
    exact ⟨id, hid, hstores.mono (grows_of_rewrites h)⟩
  sends j := (hs.sends j).mono (grows_of_rewrites h)
  sent sent hsent := (hs.sent sent hsent).mono (grows_of_rewrites h)

/-- A send moves to a point where what is expected of it holds. -/
theorem together_setSending (hs : Together mailbox mail s) {stage : Sending}
    (h : SendOk mailbox s.db stage) : Together mailbox mail (s.setSending i stage) where
  onChannel := hs.onChannel
  own := hs.own
  asked := hs.asked
  reads := hs.reads
  stored := hs.stored
  threads := hs.threads
  sends j := by
    by_cases hj : j = i
    · subst hj
      rw [Desk.setSending_self]
      exact h
    · rw [Desk.setSending_other s stage hj]
      exact hs.sends j
  sent := hs.sent

/-- A reply that was read as waiting. -/
theorem sendOk_prepared {message : Message} {reply : OutboundMessage}
    (hmessage : s.db.messages.find? (.id message.id) = some message)
    (hchannel : message.providerAccountId = mailbox.channelId)
    (hout : message.direction = .outbound) (h : readReply s.db message = some reply) :
    SendOk mailbox s.db (.prepared reply) := by
  simp only [readReply, Option.bind_eq_bind, Option.bind_eq_some_iff, Option.some.injEq] at h
  obtain ⟨conversation, hconversation, contactIdentity, _, rfl⟩ := h
  refine ⟨rfl, message, hmessage, hchannel, hout, ?_⟩
  exact (Conversation.id_of_find? hconversation).symm

/-- The messages of a thread are on the channel of the reply. -/
theorem stores_of_thread (hs : Together mailbox mail s) {replyId conversationId : Id}
    (hreply : IsReplyIn mailbox s.db replyId conversationId) {thread : List Message}
    (hthread : IsThread s.db.messages conversationId thread) {m : Message} (hm : m ∈ thread)
    {id : String} (hid : m.providerMessageId = some id) (hne : id ≠ "") :
    Stores mailbox s.db id conversationId := by
  obtain ⟨hmem, hin⟩ := List.mem_filter.mp (hthread.perm.subset hm)
  simp only [inThread, Bool.and_eq_true, decide_eq_true_eq] at hin
  obtain ⟨r, hr, hchannel, _, rfl⟩ := hreply
  obtain ⟨c, hc, haccount⟩ := hs.onChannel.messages r (Table.find?_eq_some.mp hr).1
  obtain ⟨c', hc', haccount'⟩ := hs.onChannel.messages m hmem
  rw [hin.1.1, hc] at hc'
  cases hc'
  have hsame : m.providerAccountId = mailbox.channelId :=
    haccount'.symm.trans (haccount.trans hchannel)
  refine ⟨hne, m, Table.find?_eq_some.mpr ⟨hmem, ?_⟩, hin.1.1⟩
  exact Message.provider_mem_keys.mpr ⟨hsame, hid⟩

/-- The mail of a reply names messages of its conversation. -/
theorem sendOk_calling (hs : Together mailbox mail s) {reply : OutboundMessage}
    {content : MessageContent} {thread : List Message}
    (hok : SendOk mailbox s.db (.prepared reply))
    (hthread : IsThread s.db.messages reply.conversation.id thread) :
    SendOk mailbox s.db (.calling (buildIntent s.db.messages thread reply content)) := by
  obtain ⟨hemail, hreply⟩ := hok
  refine ⟨reply.conversation.id, hreply, fun text => ⟨fun id hid => ?_, fun id hid => ?_⟩⟩
  · rw [references_mailOptions hemail] at hid
    have hkept := (keepsEnds_keptReferences (messageIds thread)).sublist.subset
    obtain ⟨⟨m, hm, hmid⟩, hreal⟩ := mem_messageIds.mp (hkept hid)
    exact stores_of_thread hs hreply hthread hm hmid (ne_empty_of_isMessageId hreal)
  · rw [inReplyTo_mailOptions hemail] at hid
    obtain ⟨hlast, hne⟩ := truthy_eq_some.mp hid
    obtain ⟨m, hm, hmid⟩ := Option.bind_eq_some_iff.mp hlast
    exact stores_of_thread hs hreply hthread (le_of_lastInbound hthread.ordered hm).1 hmid hne

/-- The result of a mail that the server has taken. -/
theorem sendMessage_eq_ok {account : MailAccount} {info : SendInfo} {now : Date}
    {intent : OutboundMessageIntent} {text : String} {result : ProviderSendResult}
    (hcontent : intent.content = .text text)
    (h : sendMessage (fun _ => .ok info) account now intent = .ok result) :
    result.providerMessageId =
      info.messageId.getD (outboundMessageId intent.intentId account.emailAddress) := by
  simp only [sendMessage, hcontent, bind, Except.bind] at h
  split at h
  · cases h
  · cases h
    rfl

theorem together_accepted (hs : Together mailbox mail s) {intent : OutboundMessageIntent}
    (hcall : s.sending i = .calling intent) {info : SendInfo} {now : Date}
    (hinfo : ∀ id ∈ info.messageId, id = mailbox.messageIdOf intent.intentId) :
    Together mailbox mail (mailbox.stepAccepted s i intent info now) := by
  have hok := hs.sends i
  rw [hcall] at hok
  obtain ⟨c, hreply, hnames⟩ := hok
  unfold EmailChannel.stepAccepted
  split
  · next text result hcontent hresult =>
    have hid : result.providerMessageId = mailbox.messageIdOf intent.intentId := by
      rw [sendMessage_eq_ok hcontent hresult]
      cases hmessageId : info.messageId with
      | none => rfl
      | some id => exact hinfo id hmessageId
    have hmoved : Together mailbox mail (s.setSending i (.marking intent.intentId
        result.providerMessageId result.providerTimestamp)) :=
      together_setSending hs ⟨hid, c, hreply⟩
    refine { hmoved with sent := fun sent hsent => ?_ }
    rcases List.mem_cons.mp hsent with rfl | hold
    · exact ⟨c, hreply, hnames text⟩
    · exact hs.sent sent hold
  · exact together_setSending hs trivial

/-- A reply that is on the channel has no provider id, or its own Message-ID. -/
theorem own_or_none (hs : Together mailbox mail s) {replyId c : Id}
    (hreply : IsReplyIn mailbox s.db replyId c) {m : Message} (hm : m ∈ s.db.messages.rows)
    (hid : m.id = replyId) : m.direction = .outbound ∧ m.providerAccountId = mailbox.channelId ∧
      (m.providerMessageId = none ∨
        m.providerMessageId = some (mailbox.messageIdOf replyId)) := by
  obtain ⟨r, hr, hchannel, hout, _⟩ := hreply
  rw [← hid, Message.find?_of_mem hm] at hr
  cases hr
  refine ⟨hout, hchannel, ?_⟩
  cases hprovider : m.providerMessageId with
  | none => exact Or.inl rfl
  | some id =>
      rw [← hid]
      exact Or.inr (congrArg some (hs.own m hm hchannel hout id hprovider))

/-- Where the Message-ID of a reply is taken, another message has it. -/
theorem sendOk_remarking {replyId : Id} {sentAt now : Date}
    (hreply : ∃ c, IsReplyIn mailbox s.db replyId c)
    (h : Delivery.markSent s.db.messages replyId (some (mailbox.messageIdOf replyId)) sentAt now
      = none) : SendOk mailbox s.db (.remarking replyId sentAt) := by
  refine ⟨hreply, ?_⟩
  obtain ⟨c, r, hr, hchannel, _, _⟩ := hreply
  have hrid := Message.id_of_find? hr
  by_contra hnone
  have hfree : Delivery.Unclaimed s.db.messages r (mailbox.messageIdOf replyId) := by
    intro m hm haccount hid
    by_contra hne
    refine hnone ⟨m, Table.find?_eq_some.mpr ⟨hm, ?_⟩, hrid ▸ hne⟩
    exact Message.provider_mem_keys.mpr ⟨haccount.trans hchannel, hid⟩
  have haccount : ∀ m ∈ s.db.messages.rows, m.id = r.id →
      m.providerAccountId = r.providerAccountId := by
    intro m hm hid
    have hfind := Message.find?_of_mem hm
    rw [hid, hrid, hr] at hfind
    cases hfind
    rfl
  obtain ⟨t, ht⟩ : ∃ t, Delivery.markSent s.db.messages r.id (some (mailbox.messageIdOf replyId))
      sentAt now = some t := Delivery.exists_markSent hfree haccount
  rw [hrid, h] at ht
  cases ht

theorem together_markSent (hs : Together mailbox mail s) {s' : Desk} {now : Date}
    (h : s.stepMarkSent i now = some s') : Together mailbox mail s' := by
  have hok := hs.sends i
  unfold Desk.stepMarkSent at h
  split at h
  · next replyId providerMessageId sentAt hcall =>
    rw [hcall] at hok
    obtain ⟨rfl, hreply⟩ := hok
    split at h
    · next t ht =>
      cases h
      obtain ⟨c, hc⟩ := hreply
      obtain ⟨f, hf⟩ : ∃ f, mailbox.Rewrites s.db.messages t f := by
        refine EmailChannel.rewrites_markSent ht fun m hm hid _ => ?_
        obtain ⟨hout, _, hnone | hown⟩ := own_or_none hs hc hm hid
        · exact Or.inr ⟨hout, hnone, by rw [hid]⟩
        · exact Or.inl hown.symm
      exact together_rewrites (together_setSending hs trivial) hf
    · next hnone =>
      cases h
      exact together_setSending hs (sendOk_remarking hreply hnone)
  · next replyId sentAt hcall =>
    rw [hcall] at hok
    obtain ⟨⟨c, hc⟩, other, hother, hne⟩ := hok
    obtain ⟨t, ht, rfl⟩ := Option.map_eq_some_iff.mp h
    obtain ⟨f, hf⟩ : ∃ f, mailbox.Rewrites s.db.messages t f := by
      refine EmailChannel.rewrites_markSent ht fun m hm hid _ => Or.inl ?_
      obtain ⟨_, hchannel, hnone | hown⟩ := own_or_none hs hc hm hid
      · exact hnone.symm
      · -- The other message has the Message-ID, so this one has not.
        have hfind : s.db.messages.find?
            (.provider mailbox.channelId (mailbox.messageIdOf replyId)) = some m :=
          Table.find?_eq_some.mpr ⟨hm, Message.provider_mem_keys.mpr ⟨hchannel, hown⟩⟩
        rw [hother] at hfind
        cases hfind
        exact absurd hid hne
    exact together_rewrites (together_setSending hs trivial) hf
  · cases h

end Sends

/-! ## Ingests and agents -/

section Chats

variable {ι : Type*} {js : Runtime} {mailbox : EmailChannel} {mail : ι → EmailPayload} {s : Desk}
  {chats : Conversations.World} {a : Conversations.Action} {x y : ι} {request : IngestRequest}

/-- The message of a mail names what the mail names. -/
theorem isFor_of_normalizeInbound {payload : EmailPayload} {now : Date}
    (h : .message request.message ∈
      normalizeInbound js mailbox.account.emailAddress now payload) : IsFor request payload := by
  obtain ⟨address, _, _, _, hdata⟩ := message_mem_normalizeInbound.mp h
  exact ⟨by rw [hdata]; rfl, by rw [hdata]; rfl, by rw [hdata]; rfl⟩

/-- A request is for one mail. -/
theorem IsFor.unique (hmail : Letters mail) (hx : IsFor request (mail x))
    (hy : IsFor request (mail y)) : x = y :=
  hmail.distinct (hx.messageId.symm.trans hy.messageId)

/-- The first mail of a thread names itself as its thread. -/
theorem threadId_of_isFirst {payload : EmailPayload} (h : payload.IsFirst) :
    payload.threadId = payload.providerMessageId := by
  rw [EmailPayload.threadId, h.1, h.2]
  rfl

/-- The thread of an answer begins where the mail it answers says, or is that
mail. -/
theorem threadId_of_answer {payload : EmailPayload} {id head : String}
    (hid : payload.inReplyTo = some id)
    (h : payload.usedReferences = [] ∨ payload.usedReferences.head? = some head) :
    payload.threadId = id ∨ payload.threadId = head := by
  rcases h with hnone | hhead
  · left
    rw [EmailPayload.threadId, hnone, hid]
    rfl
  · right
    rw [EmailPayload.threadId, hhead]
    rfl

/-- A stored mail is in the conversation of the mail that its thread begins
with. -/
theorem stores_of_known (hmail : Letters mail) (hs : Together mailbox mail s) {id head : String}
    (h : Known mailbox mail s id head) :
    ∃ c, Stores mailbox s.db id c ∧ Stores mailbox s.db head c := by
  cases h with
  | @letter x m hm hin =>
      have hown : Stores mailbox s.db (mail x).providerMessageId m.conversationId :=
        ⟨hmail.nonempty x, m, hm, rfl⟩
      refine ⟨m.conversationId, hown, ?_⟩
      rcases hs.stored x m hm hin with hfirst | ⟨_, _, _, hthread⟩
      · rw [threadId_of_isFirst hfirst]
        exact hown
      · exact hthread
  | @reply sent m hsent hm hreply =>
      obtain ⟨c, ⟨r, hr, _, hout, rfl⟩, hnames⟩ := hs.sent sent hsent
      obtain ⟨hmem, hkey⟩ := Table.find?_eq_some.mp hm
      have hfind := Message.find?_of_mem hmem
      rw [hreply, hr] at hfind
      cases hfind
      have hne : sent.providerMessageId ≠ "" := by
        obtain ⟨hchannel, hid⟩ := Message.provider_mem_keys.mp hkey
        rw [hs.own m hmem hchannel hout _ hid]
        have hreal : isMessageId (mailbox.messageIdOf m.id) = true := by
          simp [EmailChannel.messageIdOf, outboundMessageId, isMessageId]
        exact ne_empty_of_isMessageId hreal
      have hown : Stores mailbox s.db sent.providerMessageId m.conversationId := ⟨hne, m, hm, rfl⟩
      refine ⟨m.conversationId, hown, ?_⟩
      rw [SentMail.head]
      cases hreferences : sent.mail.references.head? with
      | some id => exact hnames.references id (List.mem_of_mem_head? hreferences)
      | none =>
          cases hreplyTo : sent.mail.inReplyTo with
          | some id => exact hnames.inReplyTo id hreplyTo
          | none => exact hown

/-- What an answer names is stored in one conversation. -/
theorem due_of_answers (hmail : Letters mail) (hs : Together mailbox mail s)
    {payload : EmailPayload} (h : Answers mailbox mail s payload) :
    ∃ c, Due mailbox s.db payload c := by
  obtain ⟨id, head, hknown, hid, hreferences⟩ := h
  obtain ⟨c, hstores, hhead⟩ := stores_of_known hmail hs hknown
  refine ⟨c, id, hid, hstores, ?_⟩
  rcases threadId_of_answer hid hreferences with hthread | hthread
  · rw [hthread]
    exact hstores
  · rw [hthread]
    exact hhead

/-! ### The point a call has reached -/

theorem together_asked (hmail : Letters mail) (hs : Together mailbox mail s)
    (h : Conversations.step s.chats a = some chats)
    (hgood : ∀ i request, a = .ingest i request → request.channel.id = mailbox.channelId →
      ∃ x now, .message request.message ∈
          normalizeInbound js mailbox.account.emailAddress now (mail x) ∧
        ((mail x).IsFirst ∨ Answers mailbox mail s (mail x)))
    {i : CallId} (hi : (chats.call i).request? = some request)
    (hchannel : request.channel.id = mailbox.channelId) :
    ∃ x, IsFor request (mail x) ∧ ((mail x).IsFirst ∨ ∃ c, Due mailbox chats.db (mail x) c) := by
  have hold : ∃ x, IsFor request (mail x) ∧
      ((mail x).IsFirst ∨ ∃ c, Due mailbox s.db (mail x) c) := by
    rcases Conversations.request?_of_step h hi with hold | ⟨rfl, _⟩
    · exact hs.asked i request hold hchannel
    · obtain ⟨x, now, hmessage, hwhich⟩ := hgood i request rfl hchannel
      exact ⟨x, isFor_of_normalizeInbound hmessage,
        hwhich.imp_right fun hanswers => due_of_answers hmail hs hanswers⟩
  obtain ⟨x, hx, hdue⟩ := hold
  exact ⟨x, hx, hdue.imp_right fun hdue => hdue.imp fun _ => Due.mono (grows_of_step h)⟩

/-- The mail that a call of the channel is for. -/
theorem mail_of_call (hmail : Letters mail) (hs : Together mailbox mail s) {i : CallId}
    (hi : (s.chats.call i).request? = some request)
    (hchannel : request.channel.id = mailbox.channelId) (hx : IsFor request (mail x)) :
    (mail x).IsFirst ∨ ∃ c, Due mailbox s.db (mail x) c := by
  obtain ⟨y, hy, hdue⟩ := hs.asked i request hi hchannel
  obtain rfl := hx.unique hmail hy
  exact hdue

/-- The thread of a mail that arrives is no empty string. -/
theorem threadId_ne_empty (hmail : Letters mail)
    (h : (mail x).IsFirst ∨ ∃ c, Due mailbox s.db (mail x) c) : (mail x).threadId ≠ "" := by
  rcases h with hfirst | ⟨c, _, _, _, hthread⟩
  · rw [threadId_of_isFirst hfirst]
    exact hmail.nonempty x
  · exact hthread.1

/-- What the lookup of a thread leads to. -/
theorem reads_afterThread (hmail : Letters mail) (hs : Together mailbox mail s) {i : CallId}
    {tx : Conversations.IngestTx} {threadId : String} {found : List Conversation}
    (hcall : s.chats.call i = .resolving tx) (hthread : tx.request.thread? = some threadId)
    (hfound : s.db.conversations.Selects (Conversations.inThread tx.request.channel.id threadId)
      Conversations.newestFirst 1 found) :
    Reads mailbox mail s.db (Conversations.afterThread tx found) := by
  have hwhich : ∀ x, tx.request.channel.id = mailbox.channelId → IsFor tx.request (mail x) →
      (mail x).IsFirst ∨ ∃ c, Due mailbox s.db (mail x) c := by
    intro x hchannel hx
    exact mail_of_call hmail hs (by rw [hcall]; rfl) hchannel hx
  cases found with
  | cons c rest =>
      intro hchannel x hx
      refine (hwhich x hchannel hx).imp_right fun ⟨c', id, hid, hanswered, hstored⟩ => ?_
      obtain ⟨hmem, hin⟩ := hfound.selected c List.mem_cons_self
      obtain ⟨haccount, hunits⟩ := Conversations.inThread_iff.mp hin
      obtain ⟨id', hunits', hstores⟩ :=
        hs.threads c hmem (haccount.trans hchannel) _ hunits
      have hid' := codeUnits_injective hunits'
      have hown : threadId = (mail x).threadId := by
        rw [IngestRequest.thread?, hx.thread] at hthread
        exact (Option.some.inj (truthy_eq_some.mp hthread).1).symm
      rw [hid', hown] at hstores
      rw [hstored.unique hstores] at hanswered hstored
      exact ⟨id, hid, hanswered, hstored⟩
  | nil =>
      rw [Conversations.afterThread]
      split
      · next target htarget => exact htarget
      · next hnone =>
        intro hchannel x hx
        rcases hwhich x hchannel hx with hfirst | ⟨c, id, hid, hanswered, _⟩
        · exact hfirst
        · rw [hx.replyTarget, hid, truthy_eq_some.mpr ⟨rfl, hanswered.1⟩] at hnone
          cases hnone

/-- What the lookup of the mail replied to leads to. -/
theorem reads_of_readTarget (hmail : Letters mail) (hs : Together mailbox mail s) {i : CallId}
    (h : Conversations.step s.chats (.readTarget i) = some chats) :
    Reads mailbox mail s.db (chats.call i) := by
  obtain ⟨tx, target, hcall, rfl⟩ := Conversations.readTarget_of_step h
  rw [Conversations.World.setCall_self]
  have hreply := hs.reads i
  rw [hcall] at hreply
  have hanswered : ∀ x, tx.request.channel.id = mailbox.channelId → IsFor tx.request (mail x) →
      ∃ c, Due mailbox s.db (mail x) c ∧ Stores mailbox s.db target c := by
    intro x hchannel hx
    have htarget : truthy (mail x).inReplyTo = some target := hx.replyTarget.symm.trans hreply
    obtain ⟨hid, _⟩ := truthy_eq_some.mp htarget
    rcases mail_of_call hmail hs (by rw [hcall]; rfl) hchannel hx with hfirst | ⟨c, hdue⟩
    · rw [hfirst.1] at hid
      cases hid
    · obtain ⟨id, hid', hanswered, hthread⟩ := hdue
      rw [hid] at hid'
      cases hid'
      exact ⟨c, ⟨target, hid, hanswered, hthread⟩, hanswered⟩
  split
  · next m hm =>
    intro hchannel x hx
    obtain ⟨c, hdue, _, m', hm', rfl⟩ := hanswered x hchannel hx
    have hm : s.db.messages.find? (.provider tx.request.channel.id target) = some m := hm
    rw [hchannel, hm'] at hm
    cases hm
    exact hdue
  · next hnone =>
    intro hchannel x hx
    obtain ⟨c, _, _, m', hm', _⟩ := hanswered x hchannel hx
    have hnone : s.db.messages.find? (.provider tx.request.channel.id target) = none := hnone
    rw [hchannel, hm'] at hnone
    cases hnone

theorem together_reads (hmail : Letters mail) (hs : Together mailbox mail s)
    (h : Conversations.step s.chats a = some chats) (i : CallId) :
    Reads mailbox mail chats.db (chats.call i) := by
  refine Reads.mono (grows_of_step h) ?_
  by_cases hi : i = a.call
  · subst hi
    have hmoved := Conversations.step_moved h
    generalize hc : chats.call a.call = c at hmoved
    cases hmoved with
    | @readOpen i found tx hcall _ =>
        obtain ⟨tx', hcall', hnone, _⟩ := Conversations.readOpen_of_step h
        rw [hcall] at hcall'
        cases hcall'
        have hfalse : ∀ x, tx.request.channel.id = mailbox.channelId →
            ¬IsFor tx.request (mail x) := by
          intro x hchannel hx
          have hwhich := mail_of_call hmail hs (by rw [hcall]; rfl) hchannel hx
          rw [IngestRequest.thread?, hx.thread,
            truthy_eq_some.mpr ⟨rfl, threadId_ne_empty hmail hwhich⟩] at hnone
          cases hnone
        cases found with
        | nil => exact fun hchannel x hx => absurd hx (hfalse x hchannel)
        | cons c rest => exact fun hchannel x hx => absurd hx (hfalse x hchannel)
    | @readThread i found tx _ hcall _ =>
        obtain ⟨tx', threadId, hcall', hthread, hfound, rfl⟩ := Conversations.readThread_of_step h
        rw [hcall] at hcall'
        cases hcall'
        rw [Conversations.Action.call, Conversations.World.setCall_self] at hc
        rw [← hc]
        exact reads_afterThread hmail hs hcall hthread hfound
    | @follows i tx target hcall =>
        obtain ⟨tx', threadId, hcall', hthread, hfound, rfl⟩ := Conversations.readThread_of_step h
        rw [hcall] at hcall'
        cases hcall'
        rw [Conversations.Action.call, Conversations.World.setCall_self] at hc
        rw [← hc]
        exact reads_afterThread hmail hs hcall hthread hfound
    | readTarget | noTarget =>
        rw [← hc]
        exact reads_of_readTarget hmail hs h
    | @readConversation i tx conversationId hcall =>
        have hreads := hs.reads i
        rw [hcall] at hreads
        obtain ⟨c, hfound, _⟩ := hs.onChannel.calls i conversationId tx.request.channel.id
          (by rw [hcall]; rfl)
        rw [hfound]
        intro hchannel x hx
        rw [Conversation.id_of_find? hfound]
        exact Or.inr (hreads hchannel x hx)
    | @readReplyTarget i tx read hcall =>
        have hreads := hs.reads i
        rw [hcall] at hreads
        cases read with
        | none => exact hreads
        | some c => exact hreads
    | _ => trivial
  · rw [Conversations.step_call_other h hi]
    exact hs.reads i

/-! ### Commits -/

/-- Only the first mail of a thread starts a conversation, which carries its id. -/
theorem isFirst_of_starts (hs : Together mailbox mail s) {i : CallId}
    {tx : Conversations.IngestTx} {c : Conversation}
    (hstarts : Conversations.Starts s.chats a i tx c)
    (hchannel : tx.request.channel.id = mailbox.channelId) (hx : IsFor tx.request (mail x)) :
    (mail x).IsFirst := by
  obtain ⟨replyTo, hcall⟩ := hstarts.call
  have hreads := hs.reads i
  rw [hcall] at hreads
  exact hreads hchannel x hx

theorem together_stored (hmail : Letters mail) (hs : Together mailbox mail s)
    (h : Conversations.step s.chats a = some chats) {m : Message}
    (hm : chats.db.messages.find? (.provider mailbox.channelId (mail x).providerMessageId) = some m)
    (hin : m.direction = .inbound) :
    (mail x).IsFirst ∨ Due mailbox chats.db (mail x) m.conversationId := by
  cases hbefore : s.db.messages.find?
      (.provider mailbox.channelId (mail x).providerMessageId) with
  | some m₀ =>
      rw [Conversations.message_kept h hbefore] at hm
      cases hm
      exact (hs.stored x m hbefore hin).imp_right (Due.mono (grows_of_step h))
  | none =>
      obtain ⟨i, request, result, hins, hkey⟩ := Conversations.inserts_of_new h hbefore hm
      obtain ⟨tx, read, replyTo, _, _, _, _, hcall, rfl, _, c', _, hid, hwhich⟩ :=
        Conversations.commit_of_inserts h hins
      obtain ⟨m', hm', _, hmid⟩ := hins.stored
      rw [hkey, hm] at hm'
      cases hm'
      rw [IngestRequest.key, MessageKey.provider.injEq] at hkey
      obtain ⟨y, hy, _⟩ := hs.asked i tx.request (by rw [hcall]; rfl) hkey.1
      obtain rfl : y = x := hmail.distinct (hy.messageId.symm.trans hkey.2)
      rw [hmid, ← hid]
      rcases hwhich with ⟨c, rfl, hcid⟩ | hstarts
      · have hreads := hs.reads i
        rw [hcall] at hreads
        rw [← hcid]
        exact (hreads hkey.1 y hy).imp_right (Due.mono (grows_of_step h))
      · exact Or.inl (isFirst_of_starts hs hstarts hkey.1 hy)

theorem together_threads (hmail : Letters mail) (hs : Together mailbox mail s)
    (h : Conversations.step s.chats a = some chats) {c' : Conversation}
    (hc' : c' ∈ chats.db.conversations.rows) (hchannel : c'.providerAccountId = mailbox.channelId)
    {units : CodeUnits} (hunits : c'.externalThreadId = some units) :
    ∃ id, codeUnits id = units ∧ Stores mailbox chats.db id c'.id := by
  rcases Conversations.conversation_of_step h hc' with ⟨c, hc, hchange⟩ | ⟨i, tx, hstarts⟩
  · have hsame := Conversations.sameThread_of_change hchange
    obtain ⟨id, hid, hstores⟩ :=
      hs.threads c hc (hsame.channel.symm.trans hchannel) units (hsame.thread.symm.trans hunits)
    rw [hsame.id]
    exact ⟨id, hid, hstores.mono (grows_of_step h)⟩
  · obtain ⟨m, hm, hmid⟩ := Conversations.stored_of_starts h hc' hstarts
    have haccount : tx.request.channel.id = mailbox.channelId :=
      hstarts.channel.symm.trans hchannel
    obtain ⟨replyTo, hcall⟩ := hstarts.call
    obtain ⟨x, hx, _⟩ := hs.asked i tx.request (by rw [hcall]; rfl) haccount
    have hfirst := isFirst_of_starts hs hstarts haccount hx
    have hthread : tx.request.thread? = some (mail x).providerMessageId := by
      rw [IngestRequest.thread?, hx.thread, threadId_of_isFirst hfirst]
      exact truthy_eq_some.mpr ⟨rfl, hmail.nonempty x⟩
    have hin := Conversations.inThread_of_starts hstarts hthread (hmail.fits x)
    refine ⟨(mail x).providerMessageId, ?_, hmail.nonempty x, m, ?_, hmid⟩
    · exact Option.some.inj ((Conversations.inThread_iff.mp hin).2.symm.trans hunits)
    · rw [IngestRequest.key, haccount, hx.messageId] at hm
      exact hm

/-- A message that is inserted has come in, or has no provider id. -/
theorem together_own (hs : Together mailbox mail s)
    (h : Conversations.step s.chats a = some chats) {m : Message}
    (hm : m ∈ chats.db.messages.rows) (hchannel : m.providerAccountId = mailbox.channelId)
    (hout : m.direction = .outbound) :
    ∀ id ∈ m.providerMessageId, id = mailbox.messageIdOf m.id := by
  rcases Conversations.step_cases h with ⟨hdb, _⟩ | ⟨e, _, hcommit⟩
  · rw [hdb] at hm
    exact hs.own m hm hchannel hout
  · obtain ⟨added, hrows, hadded⟩ := hcommit.messages
    rw [hrows, List.mem_append] at hm
    rcases hm with hold | hnew
    · exact hs.own m hold hchannel hout
    · cases hadded with
      | ingest =>
          rw [List.mem_singleton.mp hnew] at hout
          cases hout
      | send =>
          rw [List.mem_singleton.mp hnew]
          intro id hid
          cases hid
      | markRead => cases hnew
      | update =>
          obtain ⟨entry, _, rfl⟩ := List.mem_map.mp hnew
          intro id hid
          cases hid

theorem together_chat (hmail : Letters mail) (hs : Together mailbox mail s)
    (h : Conversations.step s.chats a = some chats)
    (hgood : ∀ i request, a = .ingest i request → request.channel.id = mailbox.channelId →
      ∃ x now, .message request.message ∈
          normalizeInbound js mailbox.account.emailAddress now (mail x) ∧
        ((mail x).IsFirst ∨ Answers mailbox mail s (mail x))) :
    Together mailbox mail { s with chats := chats } where
  onChannel := Conversations.onChannel_step hs.onChannel h
  own _ hm := together_own hs h hm
  asked _ _ hi hchannel := together_asked hmail hs h hgood hi hchannel
  reads i := together_reads hmail hs h i
  stored _ _ hm hin := together_stored hmail hs h hm hin
  threads _ hc hchannel _ hunits := together_threads hmail hs h hc hchannel hunits
  sends i := (hs.sends i).mono (grows_of_step h)
  sent sent hsent := (hs.sent sent hsent).mono (grows_of_step h)

end Chats

/-! ## Runs -/

section Runs

variable {ι : Type*} {js : Runtime} {mailbox : EmailChannel} {mail : ι → EmailPayload} {s s' : Desk}
  {a : DeskAction}

theorem together_send (hs : Together mailbox mail s) {i : SendId} {replyId : Id}
    (h : mailbox.stepSend s i replyId = some s') : Together mailbox mail s' := by
  unfold EmailChannel.stepSend at h
  split at h
  · cases h
    exact together_setSending hs trivial
  · next message hmessage =>
    split at h
    · cases h
    · next hchannel =>
      split at h
      · cases h
        exact together_setSending hs trivial
      · next hwaits =>
        simp only [not_or, not_not] at hwaits
        obtain ⟨reply, hreply, rfl⟩ := Option.map_eq_some_iff.mp h
        rw [← Message.id_of_find? hmessage] at hmessage
        exact together_setSending hs
          (sendOk_prepared hmessage (not_not.mp hchannel) hwaits.1.1 hreply)

/-- The message of another channel keeps its provider id apart. -/
theorem together_markElsewhere (hs : Together mailbox mail s) {messageId : Id}
    {providerMessageId : Option String} {sentAt now : Date}
    (h : mailbox.step s (.markElsewhere messageId providerMessageId sentAt now) = some s') :
    Together mailbox mail s' := by
  simp only [EmailChannel.step] at h
  split at h
  · next r hr =>
    split at h
    · cases h
    · next helsewhere =>
      obtain ⟨t, ht, rfl⟩ := Option.map_eq_some_iff.mp h
      obtain ⟨f, hf⟩ : ∃ f, mailbox.Rewrites s.db.messages t f := by
        refine EmailChannel.rewrites_markSent ht fun m hm hid hchannel => ?_
        have hfind := Message.find?_of_mem hm
        rw [hid, hr] at hfind
        cases hfind
        exact absurd hchannel helsewhere
      exact together_rewrites hs hf
  · cases h

theorem together_step (hmail : Letters mail) (hs : Together mailbox mail s)
    (h : mailbox.step s a = some s') (hgood : Ordinary js mailbox mail s a s') :
    Together mailbox mail s' := by
  cases a with
  | chat a =>
      obtain ⟨chats, hchats, rfl⟩ := Option.map_eq_some_iff.mp h
      exact together_chat hmail hs hchats fun i request ha =>
        hgood.1 i request (congrArg DeskAction.chat ha)
  | state statement =>
      cases h
      obtain ⟨f, hf⟩ := EmailChannel.rewrites_statement statement
      exact together_rewrites hs hf
  | markElsewhere => exact together_markElsewhere hs h
  | send i replyId =>
      simp only [EmailChannel.step] at h
      split at h
      · exact together_send hs h
      · cases h
  | compose i thread =>
      simp only [EmailChannel.step] at h
      split at h
      · next reply hcall =>
        split at h
        · next hthread =>
          cases h
          have hok := hs.sends i
          rw [hcall] at hok
          exact together_setSending hs (sendOk_calling hs hok hthread)
        · cases h
      · cases h
  | accepted i info now =>
      simp only [EmailChannel.step] at h
      split at h
      · next intent hcall =>
        cases h
        exact together_accepted hs hcall (hgood.2 i info now intent rfl hcall)
      · cases h
  | markSent i now => exact together_markSent hs h
  | ends i =>
      cases h
      exact together_setSending hs trivial

/-- Nothing is stored on the channel yet, and nothing is under way. -/
structure CorrespondenceStart (mailbox : EmailChannel) (s : Desk) : Prop where
  onChannel : Conversations.OnChannel s.chats
  calls : ∀ i, s.chats.call i = .idle
  messages : ∀ m ∈ s.db.messages.rows, m.providerAccountId ≠ mailbox.channelId
  conversations : ∀ c ∈ s.db.conversations.rows, c.providerAccountId ≠ mailbox.channelId
  sends : ∀ i, s.sending i = .idle
  sent : s.sent = []

theorem together_of_start (h : CorrespondenceStart mailbox s) : Together mailbox mail s where
  onChannel := h.onChannel
  own m hm hchannel := absurd hchannel (h.messages m hm)
  asked i request hi := by
    rw [h.calls i] at hi
    cases hi
  reads i := by
    rw [h.calls i]
    trivial
  stored x m hm := by
    obtain ⟨hmem, hkey⟩ := Table.find?_eq_some.mp hm
    exact absurd (Message.provider_mem_keys.mp hkey).1 (h.messages m hmem)
  threads c hc hchannel := absurd hchannel (h.conversations c hc)
  sends i := by
    rw [h.sends i]
    trivial
  sent sent hsent := by
    rw [h.sent] at hsent
    cases hsent

/-- Mails that name each other are together in the sense of the conversation. -/
theorem corresponds_of_together (hs : Together mailbox mail s) : Corresponds mailbox mail s where
  answers x m id hm hin hid := by
    rcases hs.stored x m hm hin with hfirst | ⟨id', hid', ⟨_, m', hm', hsame⟩, _⟩
    · rw [hfirst.1] at hid
      cases hid
    · rw [hid] at hid'
      cases hid'
      exact ⟨m', hm', hsame⟩
  replies sent hsent := by
    obtain ⟨c, ⟨r, hr, _, _, rfl⟩, hnames⟩ := hs.sent sent hsent
    refine ⟨r, hr, fun id hid => ?_⟩
    obtain ⟨_, m', hm', hsame⟩ : Stores mailbox s.db id r.conversationId := by
      rcases hid with hid | hid
      · exact hnames.inReplyTo id hid
      · exact hnames.references id hid
    exact ⟨m', hm', hsame⟩

/-- In every run, with any interleaving of ingests, agents, sends and statements
on a status, every answer is stored in the conversation of the mail it answers,
and a reply names mails of its own conversation only. -/
theorem corresponds_of_run (hmail : Letters mail) (hs : CorrespondenceStart mailbox s)
    {as : List DeskAction} (hgood : mailbox.machine.Along (Ordinary js mailbox mail) s as)
    (h : mailbox.machine.run s as = some s') : Corresponds mailbox mail s' :=
  corresponds_of_together <|
    Machine.invariant_along (M := mailbox.machine) (I := Together mailbox mail)
      (fun _ _ _ hs hstep hgood => together_step hmail hs hstep hgood)
      (together_of_start hs) hgood h

end Runs

/-! ## A correspondence -/

def supportMailbox : EmailChannel := ⟨"channel", { name := "Support", emailAddress := "support@x" }⟩

/-- A customer writes, and a colleague answers the reply to it. -/
def askAndAnswer : Fin 2 → EmailPayload
  | 0 => { uid := 1, uidValidity := "1", messageId := some "<0@x>",
           fromAddress := some ⟨"a@x", ""⟩, text := "Hello" }
  | 1 => { uid := 2, uidValidity := "1", messageId := some "<1@x>", inReplyTo := some "<m@x>",
           fromAddress := some ⟨"b@x", ""⟩, text := "Thanks" }

theorem letters_askAndAnswer : Letters askAndAnswer where
  distinct := by
    have hsame : ∀ x y, (askAndAnswer x).providerMessageId = (askAndAnswer y).providerMessageId →
        x = y := by decide
    exact fun x y => hsame x y
  nonempty := by decide
  fits := by decide

def askedRequest (x : Fin 2) : IngestRequest where
  channel := { exampleChannel with provider := .emailSmtpImap }
  message := normalizedMessage (askAndAnswer x) (if x = 0 then "a@x" else "b@x") 1
  providerEventId := (askAndAnswer x).providerMessageId
  messageId := (askAndAnswer x).providerMessageId

def Desk.init : Desk := ⟨Conversations.World.init, fun _ => .idle, []⟩

/-- The customer's mail is stored, an agent replies, and the reply is read. -/
def asked : List DeskAction :=
  (Conversations.mailRead 0 (askedRequest 0) [] ++ Conversations.mailWrite 0 "c").map .chat ++
    [.chat (.send 1 ⟨"workspace", "member", "Ann", true, true⟩ exampleChannel "c"
        { text := "Hi" } "m" 3),
      .chat (.commitSend 1 4), .send 0 "m"]

/-- The messages that are there after some actions. -/
def messagesAfter (as : List DeskAction) : List Message :=
  match supportMailbox.machine.run Desk.init as with
  | none => []
  | some s => s.db.messages.rows

/-- The reply is sent, and the answer to it is stored. -/
def answeredRun : List DeskAction :=
  asked ++ [.compose 0 ((messagesAfter asked).filter (inThread "c")), .accepted 0 ⟨[], none⟩ 5,
    .markSent 0 6] ++ (Conversations.mailRead 2 (askedRequest 1) []).map .chat ++
    [.chat (.readTarget 2), .chat (.readConversation 2)] ++
    (Conversations.mailWrite 2 "").map .chat

/-- Whether what happens next is ordinary in the example. -/
def ordinaryTest (s : Desk) : DeskAction → Bool
  | .chat (.ingest _ request) =>
      request = askedRequest 0 ||
        (request = askedRequest 1 && s.sent.any fun sent =>
          sent.providerMessageId = "<m@x>" &&
            (s.db.messages.find? (.provider "channel" "<m@x>")).any fun m => m.id = sent.replyId)
  | .accepted _ info _ => info.messageId = none
  | _ => true

theorem message_askedRequest : ∀ x, .message (askedRequest x).message ∈
    normalizeInbound ⟨id, id⟩ "support@x" 1 (askAndAnswer x) := by decide

theorem ordinary_of_test {s s' : Desk} {a : DeskAction} (h : ordinaryTest s a = true) :
    Ordinary ⟨id, id⟩ supportMailbox askAndAnswer s a s' := by
  refine ⟨?_, ?_⟩
  · rintro i request rfl _
    simp only [ordinaryTest, Bool.or_eq_true, Bool.and_eq_true, decide_eq_true_eq,
      List.any_eq_true, Option.any_eq_true] at h
    rcases h with rfl | ⟨rfl, sent, hsent, hid, m, hm, hreply⟩
    · exact ⟨0, 1, message_askedRequest 0, Or.inl ⟨rfl, rfl⟩⟩
    · refine ⟨1, 1, message_askedRequest 1, Or.inr ⟨"<m@x>", sent.head, ?_, rfl, Or.inl rfl⟩⟩
      rw [← hid] at hm ⊢
      exact .reply hsent hm hreply
  · rintro i info now intent rfl _ id hid
    simp only [ordinaryTest, decide_eq_true_eq] at h
    rw [h] at hid
    cases hid

theorem correspondenceStart_init : CorrespondenceStart supportMailbox Desk.init where
  onChannel :=
    { messages := fun _ hm => by cases hm
      calls := fun _ _ _ hi => by cases hi }
  calls _ := rfl
  messages _ hm := by cases hm
  conversations _ hc := by cases hc
  sends _ := rfl
  sent := rfl

/-- The theorem at that run, which stores the answer beside the mail and its
reply. -/
theorem corresponds_answeredRun : ∃ s, supportMailbox.machine.run Desk.init answeredRun = some s ∧
    s.db.messages.rows.map (fun m => (m.id, m.providerMessageId, m.conversationId))
      = [("<0@x>", some "<0@x>", "c"), ("m", some "<m@x>", "c"), ("<1@x>", some "<1@x>", "c")] ∧
    s.sent.map (fun sent => sent.mail.inReplyTo) = [some "<0@x>"] ∧
    Corresponds supportMailbox askAndAnswer s := by
  have hview : (supportMailbox.machine.run Desk.init answeredRun).map (fun s =>
      (s.db.messages.rows.map fun m => (m.id, m.providerMessageId, m.conversationId),
        s.sent.map fun sent => sent.mail.inReplyTo))
        = some ([("<0@x>", some "<0@x>", "c"), ("m", some "<m@x>", "c"),
            ("<1@x>", some "<1@x>", "c")], [some "<0@x>"]) := by decide
  obtain ⟨s, hs, hpair⟩ := Option.map_eq_some_iff.mp hview
  rw [Prod.mk.injEq] at hpair
  have hordinary : supportMailbox.machine.Along
      (Ordinary ⟨id, id⟩ supportMailbox askAndAnswer) Desk.init answeredRun :=
    Machine.along_of_checks (p := ordinaryTest) (fun _ _ _ h => ordinary_of_test h) (by decide)
  exact ⟨s, hs, hpair.1, hpair.2,
    corresponds_of_run letters_askAndAnswer correspondenceStart_init hordinary hs⟩

end Vynor.Email
