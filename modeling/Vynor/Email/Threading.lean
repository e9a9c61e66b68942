import Vynor.Delivery.Errors
import Vynor.Email.Normalize

/-!
# The thread of an email reply

`buildIntent` collects the Message-IDs of a conversation and `sendMessage` puts
them into the headers of the reply.  The references are cut to the first and the
newest ones, and keep their order.  Mail without a Message-ID is stored with a
substitute.  The references leave it out, but `In-Reply-To` does not: a reply is
in its thread unless the newest inbound mail has a substitute
(`threadsReply_iff`).
-/

namespace Vynor.Email

open Delivery (ChannelProviderError)

/-! ## The intent of a reply -/

/-- A reply with what `OUTBOUND_INCLUDE` reads along with it. -/
structure OutboundMessage where
  message : Message
  channelType : ChannelType
  conversation : Conversation
  contactIdentity : ContactIdentity

/-- `metadata` of an intent. -/
structure IntentMetadata where
  conversationId : Id
  subject : Option CodeUnits := none
  references : Option (List String) := none
  inReplyTo : Option String := none

/-- `OutboundMessageIntent`. -/
structure OutboundMessageIntent where
  intentId : Id
  workspaceId : Id
  channelType : ChannelType
  providerAccountId : Id
  destination : String
  contactId : Id
  content : MessageContent
  replyTarget : Option String
  idempotencyKey : Id
  metadata : IntentMetadata

/-- Email references kept when replying: the first and the most recent ones. -/
def MAX_EMAIL_REFERENCES : Nat := 20

/-- `id.startsWith('<')`. -/
def isMessageId (id : String) : Bool := id.toList.head? = some '<'

/-- The messages that `buildIntent` reads. -/
def inThread (conversationId : Id) (m : Message) : Bool :=
  m.conversationId = conversationId && !m.isPrivate && m.providerMessageId.isSome

/-- What the query of `buildIntent` may return: these messages, the oldest one
first.  Messages of one moment come in any order. -/
structure IsThread (messages : Messages) (conversationId : Id) (thread : List Message) : Prop where
  perm : thread.Perm (messages.rows.filter (inThread conversationId))
  ordered : thread.Pairwise fun a b => a.createdAt ≤ b.createdAt

/-- The Message-IDs of a thread. -/
def messageIds (thread : List Message) : List String :=
  (thread.filterMap Message.providerMessageId).filter isMessageId

/-- The references of a reply to messages with these ids. -/
def keptReferences (ids : List String) : List String :=
  if MAX_EMAIL_REFERENCES < ids.length then
    ids.take 1 ++ ids.drop (ids.length - (MAX_EMAIL_REFERENCES - 1))
  else ids

/-- The last inbound message of a thread. -/
def lastInbound (thread : List Message) : Option Message :=
  thread.reverse.find? fun m => m.direction = .inbound

/-- The metadata of a reply by email. -/
def emailMetadata (conversation : Conversation) (thread : List Message) : IntentMetadata where
  conversationId := conversation.id
  subject := conversation.subject.filter (· ≠ [])
  references := some (keptReferences (messageIds thread)) |>.filter (· ≠ [])
  inReplyTo := truthy ((lastInbound thread).bind Message.providerMessageId)

/-- `buildIntent`, whose query returns this thread. -/
def buildIntent (messages : Messages) (thread : List Message) (reply : OutboundMessage)
    (content : MessageContent) : OutboundMessageIntent where
  intentId := reply.message.id
  workspaceId := reply.message.workspaceId
  channelType := reply.channelType
  providerAccountId := reply.message.providerAccountId
  destination := reply.contactIdentity.externalId
  contactId := reply.conversation.contactId
  content := content
  replyTarget := (truthy reply.message.replyToMessageId).bind fun id =>
    truthy ((messages.find? (.id id)).bind Message.providerMessageId)
  idempotencyKey := reply.message.id
  metadata :=
    if reply.channelType = .email then emailMetadata reply.conversation thread
    else { conversationId := reply.conversation.id }

/-! ## The mail that is sent -/

/-- The mailbox a reply is sent from. -/
structure MailAccount where
  /-- The name of the channel. -/
  name : String
  emailAddress : String
  senderName : Option String := none

/-- What is given to `transport.sendMail`.  Empty references are left out. -/
structure MailOptions where
  fromName : String
  fromAddress : String
  toAddress : String
  subject : CodeUnits
  text : String
  messageId : String
  inReplyTo : Option String
  references : List String

/-- `/^re:/i`. -/
def startsWithRe : CodeUnits → Bool
  | r :: e :: colon :: _ =>
      (r = 82 || r = 114) && (e = 69 || e = 101) && colon = 58
  | _ => false

/-- The subject of a reply. -/
def replySubject (subject : Option CodeUnits) (name : String) : CodeUnits :=
  match subject.filter (· ≠ []) with
  | some subject => if startsWithRe subject then subject else codeUnits "Re: " ++ subject
  | none => codeUnits ("Message from " ++ name)

/-- The Message-ID of a reply. -/
def outboundMessageId (intentId : Id) (emailAddress : String) : String :=
  let domain := (emailAddress.toList.splitOn '@')[1]?.map String.ofList
  "<" ++ intentId ++ "@" ++ domain.getD "vynor.local" ++ ">"

/-- The mail of an intent. -/
def mailOptions (mailbox : MailAccount) (intent : OutboundMessageIntent) (text : String) :
    MailOptions where
  fromName := (truthy mailbox.senderName).getD mailbox.name
  fromAddress := mailbox.emailAddress
  toAddress := intent.destination
  subject := replySubject intent.metadata.subject mailbox.name
  text := text
  messageId := outboundMessageId intent.intentId mailbox.emailAddress
  inReplyTo := truthy intent.metadata.inReplyTo
  references := (intent.metadata.references.getD []).filter (· ≠ "")

/-- What `transport.sendMail` tells of a mail it has sent. -/
structure SendInfo where
  /-- The addresses that were rejected. -/
  rejected : List String
  messageId : Option String

/-- `ProviderSendResult`. -/
structure ProviderSendResult where
  providerMessageId : String
  providerTimestamp : Date

/-- `sendMessage`, for a mail server and the errors its failures are mapped to. -/
def sendMessage (sendMail : MailOptions → Except ChannelProviderError SendInfo)
    (mailbox : MailAccount) (now : Date) (intent : OutboundMessageIntent) :
    Except ChannelProviderError ProviderSendResult :=
  match intent.content with
  | .text text => do
      let mail := mailOptions mailbox intent text
      let info ← sendMail mail
      if intent.destination ∈ info.rejected then
        .error ⟨.emailSmtpImap, .recipientUnavailable, "RECIPIENT_REJECTED",
          "The mail server rejected " ++ intent.destination ++ "."⟩
      else .ok ⟨info.messageId.getD mail.messageId, now⟩
  | _ =>
      .error ⟨.emailSmtpImap, .invalidRequest, "EMAIL_CONTENT_UNSUPPORTED",
        "Only text replies can be sent by email for now."⟩

/-! ## References -/

/-- Of these ids the first and the newest ones are kept, at most `n`, in their
order. -/
structure KeepsEnds (n : Nat) (ids kept : List String) : Prop where
  sublist : kept.Sublist ids
  length : kept.length = min n ids.length
  first : kept.head? = ids.head?
  newest : kept.tail <:+ ids

/-- The references of a reply are the first and the newest Message-IDs. -/
theorem keepsEnds_keptReferences (ids : List String) :
    KeepsEnds MAX_EMAIL_REFERENCES ids (keptReferences ids) := by
  rw [keptReferences]
  split
  next hlong =>
    cases ids with
    | nil => exact absurd hlong (Nat.not_lt_zero _)
    | cons first rest =>
        have hcut : (first :: rest).length - (MAX_EMAIL_REFERENCES - 1) =
            (rest.length - (MAX_EMAIL_REFERENCES - 1)) + 1 := by
          simp only [List.length_cons, MAX_EMAIL_REFERENCES] at hlong ⊢
          omega
        rw [hcut, List.drop_succ_cons]
        refine ⟨(List.drop_sublist _ _).cons_cons first, ?_, rfl, ?_⟩
        · simp only [List.take_succ_cons, List.take_zero, List.cons_append, List.nil_append,
            List.length_cons, List.length_drop, MAX_EMAIL_REFERENCES] at hlong ⊢
          omega
        · exact (List.drop_suffix _ _).trans (List.suffix_cons _ _)
  next hshort =>
    exact ⟨List.Sublist.refl _, (Nat.min_eq_right (Nat.not_lt.mp hshort)).symm, rfl,
      List.tail_suffix _⟩

/-- A Message-ID is no empty string. -/
theorem ne_empty_of_isMessageId {id : String} (h : isMessageId id = true) : id ≠ "" := by
  rintro rfl
  exact absurd h (by decide)

theorem mem_messageIds {thread : List Message} {id : String} :
    id ∈ messageIds thread ↔
      (∃ m ∈ thread, m.providerMessageId = some id) ∧ isMessageId id = true := by
  rw [messageIds, List.mem_filter, List.mem_filterMap]

/-- References in the order of the thread come from messages in its order. -/
theorem exists_sublist_of_sublist {thread : List Message} {ids : List String}
    (h : ids.Sublist (messageIds thread)) :
    ∃ kept : List Message, kept.Sublist thread ∧ messageIds kept = ids := by
  rw [messageIds, List.filter_filterMap] at h
  obtain ⟨kept, hkept, hids⟩ := List.sublist_filterMap_iff.mp h
  exact ⟨kept, hkept, by rw [hids, messageIds, List.filter_filterMap]⟩

/-! ## The message replied to -/

/-- The message came from the customer and has a Message-ID. -/
def IsInboundMail (m : Message) : Prop :=
  m.direction = .inbound ∧ ∃ id ∈ m.providerMessageId, isMessageId id = true

/-- The newest message of a thread that came from the customer and has a
Message-ID. -/
structure IsNewestInboundMail (thread : List Message) (m : Message) : Prop where
  mem : m ∈ thread
  inbound : IsInboundMail m
  newest : ∀ m' ∈ thread, IsInboundMail m' → m'.createdAt ≤ m.createdAt

theorem lastInbound_eq (thread : List Message) :
    lastInbound thread = (thread.filter fun m => m.direction = .inbound).getLast? := by
  rw [lastInbound, ← List.head?_filter, List.filter_reverse, List.head?_reverse]

/-- The last inbound message of an ordered thread is no older than another. -/
theorem le_of_lastInbound {thread : List Message}
    (hordered : thread.Pairwise fun a b => a.createdAt ≤ b.createdAt) {m : Message}
    (h : lastInbound thread = some m) :
    m ∈ thread ∧ m.direction = .inbound ∧
      ∀ m' ∈ thread, m'.direction = .inbound → m'.createdAt ≤ m.createdAt := by
  rw [lastInbound_eq, List.getLast?_eq_some_iff] at h
  obtain ⟨earlier, heq⟩ := h
  have hmem : ∀ m', m' ∈ thread ∧ m'.direction = .inbound ↔ m' ∈ earlier ∨ m' = m := by
    intro m'
    have hiff : m' ∈ earlier ++ [m] ↔ m' ∈ earlier ∨ m' = m := by
      rw [List.mem_append, List.mem_singleton]
    rw [← hiff, ← heq, List.mem_filter, decide_eq_true_iff]
  have hpairwise := hordered.filter fun m => m.direction = .inbound
  rw [heq, List.pairwise_append] at hpairwise
  obtain ⟨hm, hinbound⟩ := (hmem m).mpr (Or.inr rfl)
  refine ⟨hm, hinbound, fun m' hm' hinbound' => ?_⟩
  cases (hmem m').mp ⟨hm', hinbound'⟩ with
  | inl hearlier => exact hpairwise.2.2 m' hearlier m (List.mem_singleton_self m)
  | inr hlast => exact Int.le_of_eq (congrArg Message.createdAt hlast)

/-! ## Threaded replies -/

/-- The mail is in its thread.  Its headers name real Message-IDs only, it
replies to the newest mail of the customer that has one, and its references are
the first and the newest ones of the thread, the oldest one first. -/
structure ThreadsReply (thread : List Message) (mail : MailOptions) : Prop where
  realInReplyTo : ∀ id ∈ mail.inReplyTo, isMessageId id = true
  realReferences : ∀ id ∈ mail.references, isMessageId id = true
  newestInbound : (∃ m ∈ thread, IsInboundMail m) →
    ∃ m, IsNewestInboundMail thread m ∧ mail.inReplyTo = m.providerMessageId
  atMost : mail.references.length ≤ 20
  ends : KeepsEnds 20 (messageIds thread) mail.references
  inTimeOrder : ∃ kept : List Message, kept.Sublist thread ∧
    kept.Pairwise (fun a b => a.createdAt ≤ b.createdAt) ∧ messageIds kept = mail.references

/-- The ids messages are stored with: a Message-ID in angle brackets, or the
substitute for it. -/
def IsStoredId (id : String) : Prop :=
  (∃ inner, id = "<" ++ inner ++ ">") ∨ ∃ uidValidity uid, id = uidKey uidValidity uid

theorem isMessageId_brackets (inner : String) : isMessageId ("<" ++ inner ++ ">") = true := by
  simp [isMessageId]

theorem uidKey_ne_empty (uidValidity : String) (uid : Int) : uidKey uidValidity uid ≠ "" := by
  intro h
  have hlist := congrArg String.toList h
  simp [uidKey] at hlist

/-- An email is stored with such an id, if its Message-ID is in angle
brackets. -/
theorem isStoredId_providerMessageId {payload : EmailPayload}
    (h : ∀ id ∈ payload.messageId, ∃ inner, id = "<" ++ inner ++ ">") :
    IsStoredId payload.providerMessageId := by
  rw [EmailPayload.providerMessageId]
  cases hid : payload.messageId with
  | none => exact Or.inr ⟨payload.uidValidity, payload.uid, rfl⟩
  | some id => exact Or.inl (h id hid)

/-- So is a reply. -/
theorem isStoredId_outboundMessageId (intentId : Id) (emailAddress : String) :
    IsStoredId (outboundMessageId intentId emailAddress) := by
  refine Or.inl ⟨intentId ++ "@" ++
    ((emailAddress.toList.splitOn '@')[1]?.map String.ofList).getD "vynor.local", ?_⟩
  simp only [outboundMessageId, String.append_assoc]

section Reply

variable {messages : Messages} {thread : List Message} {reply : OutboundMessage}

/-- The references of the mail are those of the thread. -/
theorem references_mailOptions (hemail : reply.channelType = .email) (mailbox : MailAccount)
    (content : MessageContent) (text : String) :
    (mailOptions mailbox (buildIntent messages thread reply content) text).references =
      keptReferences (messageIds thread) := by
  have hkept := (keepsEnds_keptReferences (messageIds thread)).sublist.subset
  have hpresent : ((some (keptReferences (messageIds thread))).filter (· ≠ [])).getD [] =
      keptReferences (messageIds thread) := by
    cases hnil : keptReferences (messageIds thread) <;> rfl
  rw [mailOptions, buildIntent, if_pos hemail]
  simp only [emailMetadata, hpresent]
  rw [List.filter_eq_self]
  intro id hid
  exact decide_eq_true (ne_empty_of_isMessageId (mem_messageIds.mp (hkept hid)).2)

/-- The mail replies to the last inbound message. -/
theorem inReplyTo_mailOptions (hemail : reply.channelType = .email) (mailbox : MailAccount)
    (content : MessageContent) (text : String) :
    (mailOptions mailbox (buildIntent messages thread reply content) text).inReplyTo =
      truthy ((lastInbound thread).bind Message.providerMessageId) := by
  rw [mailOptions, buildIntent, if_pos hemail]
  simp only [emailMetadata, truthy, Option.filter_filter, Bool.and_self]

/-- A mail in its thread replies to a real Message-ID.  Where the last inbound
message has a substitute, the mail replies to that. -/
theorem ThreadsReply.lastInbound_real {mailbox : MailAccount} {content : MessageContent}
    {text : String} (hemail : reply.channelType = .email)
    (h : ThreadsReply thread
      (mailOptions mailbox (buildIntent messages thread reply content) text))
    {m : Message} (hlast : lastInbound thread = some m) {id : String}
    (hid : m.providerMessageId = some id) (hstored : IsStoredId id) :
    isMessageId id = true := by
  refine h.realInReplyTo id ?_
  rw [inReplyTo_mailOptions hemail, hlast, Option.bind_some, hid]
  refine truthy_eq_some.mpr ⟨rfl, ?_⟩
  cases hstored with
  | inl hbrackets =>
      obtain ⟨inner, rfl⟩ := hbrackets
      exact ne_empty_of_isMessageId (isMessageId_brackets inner)
  | inr huid =>
      obtain ⟨uidValidity, uid, rfl⟩ := huid
      exact uidKey_ne_empty uidValidity uid

/-- Where the last inbound message has a Message-ID, a reply is in its thread. -/
theorem threadsReply_of_lastInbound_real (hemail : reply.channelType = .email)
    (hordered : thread.Pairwise fun a b => a.createdAt ≤ b.createdAt)
    (hreal : ∀ m, lastInbound thread = some m →
      ∃ id ∈ m.providerMessageId, isMessageId id = true)
    (mailbox : MailAccount) (content : MessageContent) (text : String) :
    ThreadsReply thread
      (mailOptions mailbox (buildIntent messages thread reply content) text) := by
  have hreferences :
      (mailOptions mailbox (buildIntent messages thread reply content) text).references =
        keptReferences (messageIds thread) :=
    references_mailOptions hemail mailbox content text
  have hreplyTo :
      (mailOptions mailbox (buildIntent messages thread reply content) text).inReplyTo =
        truthy ((lastInbound thread).bind Message.providerMessageId) :=
    inReplyTo_mailOptions hemail mailbox content text
  have hends : KeepsEnds 20 (messageIds thread) (keptReferences (messageIds thread)) :=
    keepsEnds_keptReferences _
  refine ⟨?_, ?_, ?_, ?_, hreferences ▸ hends, ?_⟩
  · intro id hid
    rw [hreplyTo] at hid
    obtain ⟨m, hlast, hm⟩ := Option.bind_eq_some_iff.mp (truthy_eq_some.mp hid).1
    obtain ⟨id', hid', hreal'⟩ := hreal m hlast
    rw [Option.some.inj (hm.symm.trans hid')]
    exact hreal'
  · intro id hid
    rw [hreferences] at hid
    exact (mem_messageIds.mp (hends.sublist.subset hid)).2
  · rintro ⟨m, hm, hmail⟩
    cases hlast : lastInbound thread with
    | none =>
        have hnone := List.find?_eq_none.mp hlast m (List.mem_reverse.mpr hm)
        exact absurd (decide_eq_true hmail.1) hnone
    | some last =>
        obtain ⟨hlastMem, hinbound, hnewest⟩ := le_of_lastInbound hordered hlast
        obtain ⟨id, hid, hidReal⟩ := hreal last hlast
        have hlastId : last.providerMessageId = some id := hid
        refine ⟨last, ⟨hlastMem, ⟨hinbound, id, hid, hidReal⟩,
          fun m' hm' hmail' => hnewest m' hm' hmail'.1⟩, ?_⟩
        rw [hreplyTo, hlast, Option.bind_some, hlastId]
        exact truthy_eq_some.mpr ⟨rfl, ne_empty_of_isMessageId hidReal⟩
  · rw [hreferences, hends.length]
    exact Nat.min_le_left _ _
  · obtain ⟨kept, hkept, hids⟩ := exists_sublist_of_sublist hends.sublist
    exact ⟨kept, hkept, hordered.sublist hkept, hids.trans hreferences.symm⟩

/-- A reply is in its thread exactly where the newest inbound message, if there
is one, has a Message-ID. -/
theorem threadsReply_iff (hthread : IsThread messages reply.conversation.id thread)
    (hstored : ∀ m ∈ thread, ∀ id ∈ m.providerMessageId, IsStoredId id)
    (hemail : reply.channelType = .email) (mailbox : MailAccount) (content : MessageContent)
    (text : String) :
    ThreadsReply thread (mailOptions mailbox (buildIntent messages thread reply content) text) ↔
      ∀ m, (thread.filter fun m => m.direction = .inbound).getLast? = some m →
        ∃ id ∈ m.providerMessageId, isMessageId id = true := by
  rw [← lastInbound_eq]
  constructor
  · intro hthreads m hlast
    have hm : m ∈ thread := (le_of_lastInbound hthread.ordered hlast).1
    obtain ⟨id, hid⟩ := Option.isSome_iff_exists.mp
      (Bool.and_eq_true_iff.mp (List.mem_filter.mp (hthread.perm.subset hm)).2).2
    exact ⟨id, hid, hthreads.lastInbound_real hemail hlast hid (hstored m hm id hid)⟩
  · intro hreal
    exact threadsReply_of_lastInbound_real hemail hthread.ordered hreal mailbox content text

/-- A mail of the customer, stored under this id. -/
def storedMail (id : Id) (providerMessageId : String) (createdAt : Date) : Message where
  id := id
  workspaceId := "workspace"
  conversationId := "conversation"
  providerAccountId := "mailbox"
  direction := .inbound
  senderType := .contact
  content := .text "Hello"
  text := "Hello"
  providerMessageId := some providerMessageId
  createdAt := createdAt
  updatedAt := createdAt

/-- A reply in the conversation. -/
def exampleReply : OutboundMessage where
  message :=
    { storedMail "reply" "" 3 with
      direction := .outbound, senderType := .agent, providerMessageId := none }
  channelType := .email
  conversation :=
    { id := "conversation", workspaceId := "workspace", providerAccountId := "mailbox",
      contactId := "contact", contactIdentityId := "identity", createdAt := 1 }
  contactIdentity :=
    { id := "identity", workspaceId := "workspace", contactId := "contact",
      providerAccountId := "mailbox", externalId := "customer@shop.example",
      displayName := codeUnits "Customer", lastSeenAt := 1 }

def exampleMailbox : MailAccount where
  name := "Support"
  emailAddress := "support@vynor.example"

/-- Two mails of one conversation. -/
def twoMails (providerMessageId : String) : List Message :=
  [storedMail "first" "<1@shop.example>" 1, storedMail "second" providerMessageId 2]

/-- The table that holds the two mails. -/
def exampleMessages (providerMessageId : String) (h : "<1@shop.example>" ≠ providerMessageId) :
    Messages where
  rows := twoMails providerMessageId
  unique := by
    have hfirst : MessageKey.id "first" ≠ .id "second" := by decide
    refine List.pairwise_pair.mpr fun key hkey hkey' => ?_
    simp only [storedMail, Message.keys, Option.map_some, Option.toList_some, List.mem_cons,
      List.not_mem_nil, or_false] at hkey hkey'
    rcases hkey with rfl | rfl
    · exact hkey'.elim hfirst nofun
    · exact hkey'.elim nofun fun heq => h (MessageKey.provider.inj heq).2

theorem isThread_twoMails (providerMessageId : String)
    (h : "<1@shop.example>" ≠ providerMessageId) :
    IsThread (exampleMessages providerMessageId h) exampleReply.conversation.id
      (twoMails providerMessageId) where
  perm := .refl _
  ordered := List.pairwise_pair.mpr (show (1 : Int) ≤ 2 by decide)

/-- Both mails have a Message-ID. -/
theorem threadsReply_twoMails :
    ThreadsReply (twoMails "<2@shop.example>")
      (mailOptions exampleMailbox
        (buildIntent (exampleMessages "<2@shop.example>" (by decide))
          (twoMails "<2@shop.example>") exampleReply (.text "Hi")) "Hi") := by
  refine (threadsReply_iff (isThread_twoMails "<2@shop.example>" (by decide)) ?_ rfl
    exampleMailbox (.text "Hi") "Hi").mpr ?_
  · intro m hm id hid
    rcases List.mem_pair.mp hm with rfl | rfl
    · cases hid
      exact Or.inl ⟨"1@shop.example", rfl⟩
    · cases hid
      exact Or.inl ⟨"2@shop.example", rfl⟩
  · intro m hm
    cases hm
    exact ⟨"<2@shop.example>", rfl, by decide⟩

/-- The second mail has no Message-ID, and the reply names its substitute. -/
theorem not_threadsReply_twoMails :
    IsThread (exampleMessages "uid:7:2" (by decide)) exampleReply.conversation.id
        (twoMails "uid:7:2") ∧
      ¬ThreadsReply (twoMails "uid:7:2")
        (mailOptions exampleMailbox
          (buildIntent (exampleMessages "uid:7:2" (by decide)) (twoMails "uid:7:2")
            exampleReply (.text "Hi")) "Hi") := by
  refine ⟨isThread_twoMails "uid:7:2" (by decide), fun h => ?_⟩
  exact absurd (h.realInReplyTo "uid:7:2" rfl) (by decide)

end Reply

end Vynor.Email
