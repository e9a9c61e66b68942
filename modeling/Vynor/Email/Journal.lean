import Vynor.Conversations.Cuts
import Vynor.Email.Mail

/-!
# The whole journal payload of an email

`emailToJournalPayload` with all its members.  The text is a list of code units,
as the cut may halve a pair; every other string is passed on whole.  Where the
cut halves none, the text is that of `EmailPayload`.  `cuts_wellFormed_iff` says
when a mail and a message lead to well-formed texts in the journal and in the
tables of an ingest.
-/

namespace Vynor.Email

open Conversations

/-- An attachment of a parsed mail. -/
structure Attachment where
  filename : Option String
  contentType : String
  size : Nat
  related : Bool
  contentDisposition : Option String

/-- `ParsedMail`, with all members that the payload is made of. -/
structure WholeMail extends ParsedMail where
  toEntries : List RawAddress := []
  ccEntries : List RawAddress := []
  replyToEntries : List RawAddress := []
  attachments : List Attachment := []

/-- An attachment as it is journaled. -/
structure JournalAttachment where
  filename : Option String
  contentType : String
  size : Nat
  inline : Bool

/-- The journal payload.  A date stands for its ISO text. -/
structure JournalPayload where
  uid : Int
  uidValidity : String
  messageId : Option String
  inReplyTo : Option String
  references : List String
  subject : Option String
  date : Option Date
  fromAddress : Option Address
  toAddresses : List Address
  ccAddresses : List Address
  replyTo : Option Address
  text : CodeUnits
  autoSubmitted : Option String
  attachments : List JournalAttachment

/-- `allAddresses`. -/
def allAddresses (js : Runtime) (entries : List RawAddress) : List Address :=
  (entries.filter fun entry => (truthy entry.address).isSome).map fun entry =>
    ⟨js.toLowerCase (entry.address.getD ""), entry.name.getD ""⟩

/-- `emailToJournalPayload`. -/
def journalPayload (js : Runtime) (parsed : WholeMail) (uid : Int) (uidValidity : String) :
    JournalPayload where
  uid := uid
  uidValidity := uidValidity
  messageId := parsed.messageId
  inReplyTo := parsed.inReplyTo
  references := parsed.references.toList
  subject := parsed.subject
  date := parsed.date
  fromAddress := firstAddress js parsed.fromEntries
  toAddresses := allAddresses js parsed.toEntries
  ccAddresses := allAddresses js parsed.ccEntries
  replyTo := firstAddress js parsed.replyToEntries
  text := (codeUnits (parsed.text.getD "")).take MAX_TEXT_CHARS
  autoSubmitted := parsed.autoSubmitted
  attachments := parsed.attachments.map fun a =>
    { filename := a.filename
      contentType := a.contentType
      size := a.size
      inline := a.related || a.contentDisposition = some "inline" }

/-- The strings of a payload that are passed on whole. -/
def JournalPayload.wholeStrings (p : JournalPayload) : List String :=
  let addresses := p.fromAddress.toList ++ p.toAddresses ++ p.ccAddresses ++ p.replyTo.toList
  p.uidValidity :: p.messageId.toList ++ p.inReplyTo.toList ++ p.references ++ p.subject.toList ++
    addresses.flatMap (fun a => [a.address, a.name]) ++ p.autoSubmitted.toList ++
    p.attachments.flatMap fun a => a.contentType :: a.filename.toList

/-- All strings of a payload. -/
def JournalPayload.strings (p : JournalPayload) : List CodeUnits :=
  p.text :: p.wholeStrings.map codeUnits

/-! ## The cut text -/

theorem codeUnits_sliceChars (cs : List Char) :
    ∀ n, ¬Halves n (cs.flatMap charUnits) →
      (sliceChars n cs).flatMap charUnits = (cs.flatMap charUnits).take n := by
  induction cs with
  | nil =>
      intro n _
      rw [sliceChars, List.flatMap_nil, List.take_nil]
  | cons c cs ih =>
      intro n h
      rw [List.flatMap_cons] at h ⊢
      rcases charUnits_cases c with ⟨u, heq, hlead, _⟩ | ⟨u, v, heq, hlead, htrail⟩
      · rw [heq, List.singleton_append] at h ⊢
        rw [sliceChars, heq, List.length_singleton]
        cases n with
        | zero => rfl
        | succ n =>
            rw [halves_cons_of_not_lead hlead] at h
            rw [if_pos (Nat.le_add_left 1 n), Nat.add_sub_cancel, List.flatMap_cons, heq, ih n h]
            rfl
      · rw [heq, List.cons_append, List.singleton_append] at h ⊢
        rw [sliceChars, heq, List.length_cons, List.length_singleton]
        match n with
        | 0 => rfl
        | 1 => exact absurd ((halves_one u v _).mpr ⟨hlead, htrail⟩) h
        | n + 2 =>
            rw [halves_cons, halves_cons_of_not_lead (not_isLead_of_isTrail htrail)] at h
            rw [if_pos (Nat.le_add_left 2 n), Nat.add_sub_cancel, List.flatMap_cons, heq, ih n h]
            rfl

/-- A cut that halves no pair leaves the text that `EmailPayload` has. -/
theorem text_journalPayload (js : Runtime) {parsed : WholeMail}
    (h : ¬Halves MAX_TEXT_CHARS (codeUnits (parsed.text.getD ""))) (uid : Int)
    (uidValidity : String) :
    (journalPayload js parsed uid uidValidity).text =
      codeUnits (emailToJournalPayload js parsed.toParsedMail uid uidValidity).text := by
  have hslice : codeUnits (slice MAX_TEXT_CHARS (parsed.text.getD "")) =
      (codeUnits (parsed.text.getD "")).take MAX_TEXT_CHARS := by
    rw [slice, codeUnits, String.toList_ofList]
    exact codeUnits_sliceChars _ MAX_TEXT_CHARS h
  exact hslice.symm

/-- The strings of a payload are well formed exactly where the cut of the text
halves no pair. -/
theorem wellFormed_journalPayload_iff (js : Runtime) (parsed : WholeMail) (uid : Int)
    (uidValidity : String) :
    (∀ units ∈ (journalPayload js parsed uid uidValidity).strings, WellFormed units) ↔
      ¬Halves 100000 (codeUnits (parsed.text.getD "")) := by
  rw [JournalPayload.strings, List.forall_mem_cons, ← wellFormed_take_iff]
  refine and_iff_left fun units hunits => ?_
  obtain ⟨s, _, rfl⟩ := List.mem_map.mp hunits
  exact wellFormed_iff.mpr ⟨s, rfl⟩

/-! ## Mails and messages -/

/-- The journal payload of a mail is well formed exactly where the cut of its
text halves no pair, and what an ingest writes is well formed exactly where none
of its cuts does.  The preview is cut between characters. -/
theorem cuts_wellFormed_iff (js : Runtime) :
    (∀ parsed uid uidValidity,
      (∀ units ∈ (journalPayload js parsed uid uidValidity).strings, WellFormed units) ↔
        ¬Halves 100000 (codeUnits (parsed.text.getD ""))) ∧
    (∀ db db' tx read replyTo conversationId createdAt assignee result, db.WellFormed →
      ingestInTransaction db tx read replyTo
        (newConversation tx.request tx.sender conversationId createdAt assignee) =
          some (db', result) →
      (db'.WellFormed ↔ ¬Halves 255 (codeUnits tx.request.message.sender.name) ∧
        (read = none → NewTextsWhole tx.request.message))) ∧
    ∀ text, WellFormed (previewUnits (codeUnits text)) := by
  refine ⟨fun parsed uid uidValidity => wellFormed_journalPayload_iff js parsed uid uidValidity,
    fun db db' tx read replyTo conversationId createdAt assignee result hdb h =>
      wellFormed_ingest_iff hdb h, fun text => ?_⟩
  rw [previewUnits_codeUnits]
  exact wellFormed_preview _

/-- A message whose texts are short. -/
def shortMessage : InboundMessage where
  providerMessageId := "<1@shop.example>"
  sender := { identifier := "customer@shop.example", displayName := some "Customer 😀" }
  timestamp := 1
  content := .text "Hello"
  threadId := some "<1@shop.example>"
  subject := some "A question 😀"

theorem wellFormed_emptyDb : emptyDb.WellFormed :=
  ⟨fun _ h => absurd h List.not_mem_nil, fun _ h => absurd h List.not_mem_nil,
    fun _ h => absurd h List.not_mem_nil, fun _ h => absurd h List.not_mem_nil,
    fun _ h => absurd h List.not_mem_nil, fun _ h => absurd h List.not_mem_nil⟩

/-- A short mail and a short message are journaled and stored well formed. -/
theorem wellFormed_shortMessage :
    (∀ units ∈ (journalPayload ⟨id, id⟩ { messageId := none, text := some "Hello 😀" } 1 "7").strings,
      WellFormed units) ∧
    ∃ db' result, ingestInTransaction emptyDb (firstIngest shortMessage) none none
      (newConversation (firstIngest shortMessage).request (firstIngest shortMessage).sender
        "conversation" 0 none) = some (db', result) ∧ db'.WellFormed := by
  obtain ⟨hmail, hingest, _⟩ := cuts_wellFormed_iff ⟨id, id⟩
  obtain ⟨db', result, hstores, _⟩ := firstIngest_stores shortMessage
  refine ⟨(hmail _ 1 "7").mpr (by decide), db', result, hstores, ?_⟩
  refine (hingest _ _ _ _ _ _ _ _ _ wellFormed_emptyDb hstores).mpr ⟨by decide, fun _ => ?_⟩
  exact ⟨fun s hs => by cases hs; decide, fun s hs => by cases hs; decide⟩

/-- Plain letters and then one character of two code units. -/
def lettersThenPair (n : Nat) : String := String.ofList (List.replicate n 'a' ++ ['😀'])

theorem flatMap_letters (n : Nat) :
    (List.replicate n 'a').flatMap charUnits = List.replicate n 97 := by
  induction n with
  | zero => rfl
  | succ n ih =>
      rw [List.replicate_succ, List.flatMap_cons, ih]
      rfl

theorem halves_lettersThenPair {n limit : Nat} (hlimit : limit = n + 1) :
    Halves limit (codeUnits (lettersThenPair n)) := by
  have hunits : codeUnits (lettersThenPair n) = List.replicate n 97 ++ [0xd83d, 0xde00] := by
    rw [codeUnits, lettersThenPair, String.toList_ofList, List.flatMap_append, flatMap_letters]
    rfl
  rw [hlimit, hunits, Halves, Nat.add_sub_cancel, List.getElem?_append_right (by simp), List.getElem?_append_right (by simp),
    List.length_replicate, Nat.sub_self, Nat.add_sub_cancel_left]
  exact ⟨Nat.succ_ne_zero n, rfl, rfl⟩

/-- A mail whose text has a pair across the limit. -/
def exampleWholeMail : WholeMail where
  messageId := some "<1@shop.example>"
  text := some (lettersThenPair 99999)

/-- The journal payload of this mail is not well formed, nor is the name that is
stored for a sender whose name has a pair across its limit. -/
theorem not_wellFormed_cuts :
    (¬∀ units ∈ (journalPayload ⟨id, id⟩ exampleWholeMail 1 "7").strings, WellFormed units) ∧
      ¬WellFormed (Sender.storedName { identifier := lettersThenPair 254 }) := by
  have htext : exampleWholeMail.text.getD "" = lettersThenPair 99999 := rfl
  constructor
  · rw [wellFormed_journalPayload_iff, htext, not_not]
    exact halves_lettersThenPair rfl
  · rw [wellFormed_storedName_iff, not_not]
    exact halves_lettersThenPair rfl

end Vynor.Email
