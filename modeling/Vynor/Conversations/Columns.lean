import Vynor.Conversations.Ingest

/-!
# Column lengths

How long the texts of a row may be.  A column counts characters.  Names,
subjects and thread ids are cut to fewer code units than that, and previews are
short.  The other texts of an inbound message are stored as they come, and what
`ingestInTransaction` writes fits if and only if these do (`writesFit_iff`).
-/

namespace Vynor

open Lib (Table)

/-- The second half of a surrogate pair. -/
def isLowHalf (u : UInt16) : Bool := 0xdc00 ≤ u.toNat && u.toNat ≤ 0xdfff

/-- The characters of some code units.  The second half of a pair counts with the
first. -/
def charCount (units : CodeUnits) : Nat := units.countP fun u => !isLowHalf u

theorem charCount_le_length (units : CodeUnits) : charCount units ≤ units.length :=
  List.countP_le_length

theorem charCount_take_le (units : CodeUnits) (n : Nat) : charCount (units.take n) ≤ n :=
  Nat.le_trans (charCount_le_length _) (List.length_take_le n units)

theorem charCount_charUnits (c : Char) : charCount (charUnits c) = 1 := by
  have hc : c.toNat < 0xd800 ∨ 0xdfff < c.toNat ∧ c.toNat < 0x110000 := c.valid
  have hlow {n : Nat} (hn : n < 0x10000) :
      isLowHalf (UInt16.ofNat n) = (0xdc00 ≤ n && n ≤ 0xdfff) := by
    rw [isLowHalf, UInt16.toNat_ofNat_of_lt' hn]
  unfold charUnits charCount
  split
  · next hsmall =>
      have hnot : isLowHalf (UInt16.ofNat c.toNat) = false := by
        rw [hlow hsmall]
        simp only [Bool.and_eq_false_iff, decide_eq_false_iff_not]
        omega
      simp [hnot]
  · next hlarge =>
      have hfirst : isLowHalf (UInt16.ofNat (0xd800 + (c.toNat - 0x10000) / 0x400)) = false := by
        rw [hlow (by omega)]
        simp only [Bool.and_eq_false_iff, decide_eq_false_iff_not]
        omega
      have hsecond : isLowHalf (UInt16.ofNat (0xdc00 + (c.toNat - 0x10000) % 0x400)) = true := by
        rw [hlow (by omega)]
        simp only [Bool.and_eq_true, decide_eq_true_eq]
        omega
      rw [List.countP_cons, List.countP_cons, hfirst, hsecond]
      rfl

/-- The code units of a text are those of its characters. -/
theorem charCount_codeUnits (s : String) : charCount (codeUnits s) = s.length := by
  rw [← String.length_toList, codeUnits]
  induction s.toList with
  | nil => rfl
  | cons c cs ih =>
      have hc := charCount_charUnits c
      unfold charCount at hc ih ⊢
      rw [List.flatMap_cons, List.countP_append, hc, ih, List.length_cons, Nat.add_comm]

/-- A text has no more characters than code units. -/
theorem length_le_codeUnits (s : String) : s.length ≤ (codeUnits s).length := by
  rw [← charCount_codeUnits]
  exact charCount_le_length _

/-- A text that may be missing has at most so many characters. -/
def Within (limit : Nat) (text : Option String) : Prop := ∀ s, text = some s → s.length ≤ limit

section Within

variable {limit : Nat} {s t : Option String}

@[simp] theorem within_none : Within limit none := fun _ h => by cases h

@[simp] theorem within_some {text : String} : Within limit (some text) ↔ text.length ≤ limit :=
  ⟨fun h => h text rfl, fun h _ heq => by cases heq; exact h⟩

/-- An empty text fits anywhere. -/
@[simp] theorem within_truthy : Within limit (truthy s) ↔ Within limit s := by
  cases s with
  | none => exact Iff.rfl
  | some text =>
      by_cases hempty : text = ""
      · simp [truthy, Option.filter, hempty]
      · simp [truthy, Option.filter, hempty]

theorem Within.or (hs : Within limit s) (ht : Within limit t) : Within limit (s.or t) := by
  cases s with
  | none => exact ht
  | some text => exact hs

end Within

/-- The columns of `contacts`. -/
structure Contact.Fits (c : Contact) : Prop where
  displayName : charCount c.displayName ≤ 255
  email : Within 255 c.email
  phone : Within 64 c.phone
  avatarUrl : Within 1024 c.avatarUrl

/-- The columns of `contact_identities`. -/
structure ContactIdentity.Fits (i : ContactIdentity) : Prop where
  externalId : i.externalId.length ≤ 255
  displayName : charCount i.displayName ≤ 255
  username : Within 255 i.username

/-- The columns of `conversations`. -/
structure Conversation.Fits (c : Conversation) : Prop where
  subject : ∀ units, c.subject = some units → charCount units ≤ 500
  externalThreadId : ∀ units, c.externalThreadId = some units → charCount units ≤ 512
  lastMessagePreview : Within 500 c.lastMessagePreview

/-- The columns of `messages`. -/
structure Message.Fits (m : Message) : Prop where
  senderName : charCount m.senderName ≤ 255
  providerMessageId : Within 512 m.providerMessageId
  errorCode : ∀ units, m.errorCode = some units → charCount units ≤ 100

namespace Conversations

/-- Every row fits. -/
structure Db.Fits (db : Db) : Prop where
  contacts : ∀ c ∈ db.contacts.rows, c.Fits
  identities : ∀ i ∈ db.identities.rows, i.Fits
  conversations : ∀ c ∈ db.conversations.rows, c.Fits
  messages : ∀ m ∈ db.messages.rows, m.Fits

/-- The texts of a message that are stored as they come. -/
structure InboundMessage.Fits (message : InboundMessage) : Prop where
  providerMessageId : message.providerMessageId.length ≤ 512
  identifier : message.sender.identifier.length ≤ 255
  username : Within 255 message.sender.username
  email : Within 255 message.sender.email
  phone : Within 64 message.sender.phone
  avatarUrl : Within 1024 message.sender.avatarUrl

/-- Whatever an ingest of the message finds, it writes rows that fit.  `fresh` is
the conversation it creates if there is none. -/
def WritesFit (message : InboundMessage) : Prop :=
  ∀ db db' tx read replyTo conversationId createdAt assignee result,
    tx.request.message = message → db.Fits →
      ingestInTransaction db tx read replyTo
        (newConversation tx.request tx.sender conversationId createdAt assignee) =
          some (db', result) → db'.Fits

section Rows

variable {ρ κ : Type} {keys : ρ → List κ} {P : ρ → Prop} {t t' : Table ρ keys}

theorem forall_mem_insert? {r : ρ} [DecidableEq κ] (h : t.insert? r = some t')
    (ht : ∀ a ∈ t.rows, P a) (hr : P r) : ∀ a ∈ t'.rows, P a := by
  rw [(Table.insert?_eq_some.mp h).2, List.forall_mem_append]
  exact ⟨ht, by simpa using hr⟩

theorem forall_mem_updateMany {p : ρ → Bool} {f : ρ → ρ} (hf : ∀ r, keys (f r) = keys r)
    (ht : ∀ a ∈ t.rows, P a) (hP : ∀ a, P a → P (f a)) :
    ∀ a ∈ (t.updateMany p f hf).rows, P a := by
  intro a ha
  obtain ⟨r, hr, rfl⟩ := Table.mem_updateMany.mp ha
  split
  · exact hP r (ht r hr)
  · exact ht r hr

end Rows

section Fits

variable {message : InboundMessage}

theorem fits_storedName (sender : Sender) : charCount sender.storedName ≤ 255 :=
  charCount_take_le _ _

theorem fits_seen {sender : Sender} {now : Date} (husername : Within 255 sender.username)
    {i : ContactIdentity} (h : i.Fits) : (seen sender now i).Fits where
  externalId := h.externalId
  displayName := fits_storedName sender
  username := (within_truthy.mpr husername).or h.username

theorem fits_refreshed (h : message.Fits) {identity : ContactIdentity} {read c : Contact}
    (hc : c.Fits) : (refreshed message.sender identity read c).Fits where
  displayName := by
    simp only [refreshed]
    split
    · exact fits_storedName message.sender
    · exact hc.displayName
  email := by
    simp only [refreshed]
    split
    · exact (within_truthy.mpr h.email).or hc.email
    · exact hc.email
  phone := by
    simp only [refreshed]
    split
    · exact (within_truthy.mpr h.phone).or hc.phone
    · exact hc.phone
  avatarUrl := by
    simp only [refreshed]
    split
    · exact (within_truthy.mpr h.avatarUrl).or hc.avatarUrl
    · exact hc.avatarUrl

theorem fits_writeSender {db db' : Db} {request : IngestRequest} {ref : SenderRef} {now : Date}
    (hm : request.message.Fits) (hdb : db.Fits)
    (h : writeSender db request ref now = some db') : db'.Fits := by
  simp only [writeSender] at h
  split at h
  · split at h
    · next contacts identities hcontacts hidentities =>
        cases h
        refine ⟨forall_mem_insert? hcontacts hdb.contacts ?_,
          forall_mem_insert? hidentities hdb.identities ?_, hdb.conversations, hdb.messages⟩
        · exact ⟨fits_storedName _, within_truthy.mpr hm.email, within_truthy.mpr hm.phone,
            hm.avatarUrl⟩
        · exact ⟨hm.identifier, fits_storedName _, within_truthy.mpr hm.username⟩
    · cases h
  · cases h
    exact ⟨forall_mem_updateMany (keys_refreshed _ _ _) hdb.contacts fun _ hc => fits_refreshed hm hc,
      forall_mem_updateMany (keys_seen _ _) hdb.identities fun _ hi => fits_seen hm.username hi,
      hdb.conversations, hdb.messages⟩

theorem fits_newConversation (request : IngestRequest) (ref : SenderRef) (conversationId : Id)
    (createdAt : Date) (assignee : Option Id) :
    (newConversation request ref conversationId createdAt assignee).Fits where
  subject units hunits := by
    obtain ⟨s, _, rfl⟩ := Option.map_eq_some_iff.mp hunits
    exact charCount_take_le _ _
  externalThreadId units hunits := by
    obtain ⟨s, _, rfl⟩ := Option.map_eq_some_iff.mp hunits
    exact charCount_take_le _ _
  lastMessagePreview := within_none

theorem fits_counted {read c : Conversation} {createdAt : Date} {text : String} (hc : c.Fits) :
    (counted read createdAt text c).Fits where
  subject := hc.subject
  externalThreadId := hc.externalThreadId
  lastMessagePreview := by
    simp only [counted]
    split
    · exact within_some.mpr (Nat.le_trans (truncatePreview_length_le text) (by decide))
    · exact hc.lastMessagePreview

/-- What fits is stored in columns that it fits. -/
theorem writesFit_of_fits (hm : message.Fits) : WritesFit message := by
  rintro db db' tx read replyTo conversationId createdAt assignee result rfl hdb h
  simp only [ingestInTransaction, Option.bind_eq_bind, Option.bind_eq_some_iff] at h
  obtain ⟨db1, hsender, ⟨t, c⟩, hconversation, messages, hmessages, heq⟩ := h
  simp only [Option.some.injEq, Prod.mk.injEq] at heq
  obtain ⟨rfl, rfl⟩ := heq
  have hdb1 := fits_writeSender hm hdb hsender
  have ht : ∀ c ∈ t.rows, c.Fits := by
    simp only [writeConversation] at hconversation
    split at hconversation
    · split at hconversation
      · cases hconversation
        exact hdb1.conversations
      · cases hconversation
    · obtain ⟨t', hinsert, heq⟩ := Option.map_eq_some_iff.mp hconversation
      cases heq
      exact forall_mem_insert? hinsert hdb1.conversations (fits_newConversation _ _ _ _ _)
  refine ⟨hdb1.contacts, hdb1.identities,
    forall_mem_updateMany (keys_counted _ _ _) ht fun _ hc => fits_counted hc,
    forall_mem_insert? hmessages hdb1.messages ?_⟩
  exact ⟨fits_storedName _, within_some.mpr hm.providerMessageId, fun _ h => by cases h⟩

/-! ## The first message of a sender -/

/-- The ingest of a message into empty tables. -/
def firstIngest (message : InboundMessage) : IngestTx where
  request := ⟨exampleChannel, message, "event", "message"⟩
  attempt := 0
  now := 0
  sender := ⟨"identity", "contact", none⟩

/-- Tables without rows. -/
def emptyDb : Db := ⟨.empty, .empty, .empty, .empty⟩

theorem fits_emptyDb : emptyDb.Fits :=
  ⟨fun _ h => (by cases h), fun _ h => (by cases h), fun _ h => (by cases h),
    fun _ h => (by cases h)⟩

theorem exists_insert?_empty {ρ κ : Type} [DecidableEq κ] (keys : ρ → List κ) (r : ρ) :
    ∃ t', (Table.empty : Table ρ keys).insert? r = some t' ∧ r ∈ t'.rows := by
  have hfree : (Table.empty : Table ρ keys).Free r := fun a ha => by cases ha
  exact ⟨⟨[r], List.pairwise_singleton _ _⟩, Table.insert?_eq_some.mpr ⟨hfree, rfl⟩,
    List.mem_singleton_self r⟩

/-- The rows it stores for the sender and the message. -/
theorem firstIngest_stores (message : InboundMessage) :
    ∃ db' result, ingestInTransaction emptyDb (firstIngest message) none none
        (newConversation (firstIngest message).request (firstIngest message).sender "conversation" 0
          none) = some (db', result) ∧
      (∃ c ∈ db'.contacts.rows, c.email = truthy message.sender.email ∧
        c.phone = truthy message.sender.phone ∧ c.avatarUrl = message.sender.avatarUrl) ∧
      (∃ i ∈ db'.identities.rows, i.externalId = message.sender.identifier ∧
        i.username = truthy message.sender.username) ∧
      ∃ m ∈ db'.messages.rows, m.providerMessageId = some message.providerMessageId := by
  obtain ⟨contacts, hcontacts, hcontact⟩ := exists_insert?_empty Contact.keys
    { id := "contact", workspaceId := exampleChannel.workspaceId
      displayName := message.sender.storedName, email := truthy message.sender.email
      phone := truthy message.sender.phone, avatarUrl := message.sender.avatarUrl }
  obtain ⟨identities, hidentities, hidentity⟩ := exists_insert?_empty ContactIdentity.keys
    { id := "identity", workspaceId := exampleChannel.workspaceId, contactId := "contact"
      providerAccountId := exampleChannel.id, externalId := message.sender.identifier
      displayName := message.sender.storedName, username := truthy message.sender.username
      lastSeenAt := 0 }
  obtain ⟨conversations, hconversations, _⟩ := exists_insert?_empty Conversation.keys
    (newConversation (firstIngest message).request (firstIngest message).sender "conversation" 0 none)
  obtain ⟨messages, hmessages, hmessage⟩ := exists_insert?_empty Message.keys
    (newMessage (firstIngest message) "conversation" none)
  have hsender : writeSender emptyDb (firstIngest message).request (firstIngest message).sender
      (firstIngest message).now = some ⟨contacts, identities, .empty, .empty⟩ := by
    simp only [writeSender, firstIngest, emptyDb, hcontacts, hidentities]
  let fresh := newConversation (firstIngest message).request (firstIngest message).sender
    "conversation" 0 none
  have hconversation : writeConversation .empty none fresh = some (conversations, fresh) := by
    rw [writeConversation, hconversations, Option.map_some]
  have hrun : ∃ t result, ingestInTransaction emptyDb (firstIngest message) none none fresh =
      some (⟨contacts, identities, t, messages⟩, result) := by
    simp only [ingestInTransaction, Option.bind_eq_bind, hsender, hconversation, Option.bind_some]
    rw [show fresh.id = "conversation" from rfl, hmessages]
    exact ⟨_, _, rfl⟩
  obtain ⟨t, result, hrun⟩ := hrun
  exact ⟨_, result, hrun, ⟨_, hcontact, rfl, rfl, rfl⟩, ⟨_, hidentity, rfl, rfl⟩, _, hmessage, rfl⟩

/-- It stores each text as it is. -/
theorem fits_of_writesFit (h : WritesFit message) : message.Fits := by
  obtain ⟨db', result, hingest, ⟨c, hc, hemail, hphone, havatarUrl⟩,
    ⟨i, hi, hexternalId, husername⟩, m, hm, hproviderMessageId⟩ := firstIngest_stores message
  have hfits := h emptyDb db' (firstIngest message) none none "conversation" 0 none result rfl
    fits_emptyDb hingest
  have hcontact := hfits.contacts c hc
  have hidentity := hfits.identities i hi
  have hmessage := (hfits.messages m hm).providerMessageId
  rw [hproviderMessageId, within_some] at hmessage
  exact ⟨hmessage, hexternalId ▸ hidentity.externalId, within_truthy.mp (husername ▸ hidentity.username),
    within_truthy.mp (hemail ▸ hcontact.email), within_truthy.mp (hphone ▸ hcontact.phone),
    havatarUrl ▸ hcontact.avatarUrl⟩

/-- What an ingest writes fits if and only if the texts of the message do. -/
theorem writesFit_iff : WritesFit message ↔ message.Fits :=
  ⟨fits_of_writesFit, writesFit_of_fits⟩

end Fits

end Conversations

end Vynor
