import Vynor.Adapters.Adapter
import Vynor.Email.Normalize

/-!
# Email payloads

`EmailAdapter.normalizeInbound` on any payload.  Journaled emails have the
payloads of `Vynor.Email`.
-/

namespace Vynor.Adapters.Email

open Lib (Json)

/-- The functions of the runtime that the adapter calls. -/
structure Runtime extends Vynor.Email.Runtime where
  /-- `Date.parse`. -/
  parseDate : String → Option Date

section Normalize

variable (js : Runtime) (payload : Record) (context : NormalizeContext) (account : AdapterAccount)
  (now : Date)

/-- `receivedTimestamp`. -/
def receivedTimestamp (dateHeader : Option String) : Date :=
  Vynor.Email.receivedTimestamp ((truthy dateHeader).bind js.parseDate) now

/-- The lower-case address of the sender. -/
def senderAddress : Option String :=
  truthy ((asString (prop (asRecord (prop payload "from")) "address")).map js.toLowerCase)

/-- An automatic reply. -/
def isAutomatic : Bool :=
  (truthy ((asString (prop payload "autoSubmitted")).map js.toLowerCase)).any (· ≠ "no")

/-- The id of the email on its channel. -/
def providerMessageId : String :=
  (asString (prop payload "messageId")).getD
    ("uid:" ++ shown (asString (prop payload "uidValidity")) ++ ":" ++
      shown (asString (prop payload "uid")))

/-- The references that are no empty strings. -/
def references : List String :=
  (asArray (prop payload "references")).filterMap fun r => truthy (asString (some r))

/-- The text that is shown, of a whole text. -/
def shownText (fullText : String) : String :=
  ((truthy (some (Vynor.Email.stripQuotedReply fullText))).or (truthy (some fullText))).getD
    "(no text content)"

/-- `metadata` of the message. -/
def messageMetadata : Record :=
  let inReplyTo := asString (prop payload "inReplyTo")
  let fullText := (asString (prop payload "text")).getD ""
  let attachments := asArray (prop payload "attachments")
  [("subject", (asString (prop payload "subject")).map Json.string),
    ("threadId", some (.string (((references payload).head?.or inReplyTo).getD
      (providerMessageId payload)))),
    ("inReplyTo", inReplyTo.map Json.string),
    ("references", some (.array ((references payload).map Json.string))),
    ("cc", prop payload "cc"),
    ("attachments", if attachments.isEmpty then none else prop payload "attachments"),
    ("fullText", if fullText = shownText fullText then none else some (.string fullText))].filterMap
      fun m => m.2.map fun value => (m.1, value)

/-- The message of an email from this address. -/
def inboundMessage (address : String) : NormalizedInboundMessage where
  context := context
  channelType := .email
  provider := .emailSmtpImap
  providerMessageId := providerMessageId payload
  sender :=
    { identifier := address
      displayName := some ((truthy (asString (prop (asRecord (prop payload "from")) "name"))).getD
        address)
      metadata := [("email", address)] }
  recipient := { identifier := account.emailAddress }
  timestamp := .iso (receivedTimestamp js now (asString (prop payload "date")))
  content := .text (shownText ((asString (prop payload "text")).getD ""))
  replyTarget := truthy (asString (prop payload "inReplyTo"))
  metadata := messageMetadata payload

def normalizeInbound : List NormalizedInboundResult :=
  match senderAddress js payload with
  | none => [.ignored "Email without a sender address."]
  | some address =>
      if address = js.toLowerCase account.emailAddress then
        [.ignored "Email sent by this mailbox itself."]
      else if isAutomatic js payload then [.ignored "Automatic reply (out of office or similar)."]
      else [.message (inboundMessage js payload context account now address)]

end Normalize

/-! ## Journaled emails -/

/-- The payload of a journaled email.  Its date is an ISO text, and three of its
members are not those of an `EmailPayload`. -/
def record (p : Vynor.Email.EmailPayload) (date : Option String) (cc attachments : Option Json) :
    Record :=
  [("uid", some (.number (.finite p.uid))), ("uidValidity", some (.string p.uidValidity)),
    ("messageId", p.messageId.map Json.string), ("inReplyTo", p.inReplyTo.map Json.string),
    ("references", some (.array (p.references.map Json.string))),
    ("subject", p.subject.map Json.string), ("date", date.map Json.string),
    ("from", p.fromAddress.map fun a =>
      .object [("address", .string a.address), ("name", .string a.name)]),
    ("cc", cc), ("text", some (.string p.text)),
    ("autoSubmitted", p.autoSubmitted.map Json.string), ("attachments", attachments)].filterMap
      fun m => m.2.map fun value => (m.1, value)

/-- The payload is that of a parsed email, or of one that is too large. -/
def IsJournaled (js : Vynor.Email.Runtime) (p : Vynor.Email.EmailPayload) : Prop :=
  ∃ uid uidValidity,
    (∃ parsed, p = Vynor.Email.emailToJournalPayload js parsed uid uidValidity) ∨
      ∃ envelope, p = Vynor.Email.oversizedPayload js envelope uid uidValidity

end Vynor.Adapters.Email
