import Vynor.Email.Mail
import Vynor.Email.ReplyTrimmer
import Vynor.Inbound.Process

/-!
# From a journaled email to a message

`EmailAdapter.normalizeInbound`.  An email has one result.  It is ignored
without a sender, where the mailbox itself has sent it, and where it is an
automatic reply; else it is a message.  The thread is named by the first
reference, by the mail replied to, or by the mail itself.
-/

namespace Vynor.Email

open Conversations (InboundMessage)
open Inbound (InboundResult)

def MAX_DATE_SKEW_MS : Date := 10 * 60000

/-- `receivedTimestamp`. -/
def receivedTimestamp (dateHeader : Option Date) (now : Date) : Date :=
  match dateHeader with
  | none => now
  | some parsed => if MAX_DATE_SKEW_MS < (parsed - now).natAbs then now else parsed

/-- The address of the sender. -/
def EmailPayload.sender? (payload : EmailPayload) (js : Runtime) : Option String :=
  truthy (payload.fromAddress.map fun a => js.toLowerCase a.address)

/-- An automatic reply. -/
def EmailPayload.isAutomatic (payload : EmailPayload) (js : Runtime) : Bool :=
  (truthy (payload.autoSubmitted.map js.toLowerCase)).any (· ≠ "no")

/-- The references that are no empty strings. -/
def EmailPayload.usedReferences (payload : EmailPayload) : List String :=
  payload.references.filter (· ≠ "")

/-- The id of the email on its channel. -/
def EmailPayload.providerMessageId (payload : EmailPayload) : String :=
  payload.messageId.getD (uidKey payload.uidValidity payload.uid)

/-- The id of the thread. -/
def EmailPayload.threadId (payload : EmailPayload) : String :=
  (payload.usedReferences.head?.or payload.inReplyTo).getD payload.providerMessageId

/-- The text that is shown. -/
def EmailPayload.shownText (payload : EmailPayload) : String :=
  ((truthy (some (stripQuotedReply payload.text))).or (truthy (some payload.text))).getD
    "(no text content)"

/-- The message of an email with this sender. -/
def normalizedMessage (payload : EmailPayload) (address : String) (now : Date) :
    InboundMessage where
  providerMessageId := payload.providerMessageId
  sender :=
    { identifier := address
      displayName :=
        some ((truthy (payload.fromAddress.map Address.name)).getD address)
      email := some address }
  timestamp := receivedTimestamp payload.date now
  content := .text payload.shownText
  replyTarget := truthy payload.inReplyTo
  threadId := some payload.threadId
  subject := payload.subject

/-- `normalizeInbound`, for the mailbox of this address. -/
def normalizeInbound (js : Runtime) (emailAddress : String) (now : Date) (payload : EmailPayload) :
    List InboundResult :=
  match payload.sender? js with
  | none => [.ignored "Email without a sender address."]
  | some address =>
      if address = js.toLowerCase emailAddress then [.ignored "Email sent by this mailbox itself."]
      else if payload.isAutomatic js then
        [.ignored "Automatic reply (out of office or similar)."]
      else [.message (normalizedMessage payload address now)]

section Normalize

variable {js : Runtime} {emailAddress : String} {now : Date} {payload : EmailPayload}

/-- A message comes from a sender other than the mailbox, and is no automatic
reply. -/
theorem message_mem_normalizeInbound {data : InboundMessage} :
    .message data ∈ normalizeInbound js emailAddress now payload ↔
      ∃ address, payload.sender? js = some address ∧ address ≠ js.toLowerCase emailAddress ∧
        payload.isAutomatic js = false ∧ data = normalizedMessage payload address now := by
  unfold normalizeInbound
  cases hsender : payload.sender? js with
  | none => simp
  | some address =>
      by_cases hown : address = js.toLowerCase emailAddress
      · simp [hown]
      · by_cases hauto : payload.isAutomatic js = true
        · simp [hown, hauto]
        · simp [hown, hauto]

end Normalize

end Vynor.Email
