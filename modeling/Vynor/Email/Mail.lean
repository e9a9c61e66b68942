import Vynor.Contracts.Content

/-!
# Emails and their journal payloads

What `simpleParser` and the IMAP envelope tell of an email, the payload it is
journaled with, and the key of its event.

Two functions of the runtime are arguments: `createHash('sha256')`, which is
not code of the repository, and `toLowerCase`, whose Unicode tables no proof
needs.
-/

namespace Vynor.Email

/-- The functions of the runtime that the adapter calls. -/
structure Runtime where
  /-- `createHash('sha256').update(text).digest('hex')`. -/
  sha256 : String → String
  toLowerCase : String → String

/-- An address with its display name. -/
structure Address where
  address : String
  name : String
deriving DecidableEq, Repr

/-- An address of a parsed header or an envelope. -/
structure RawAddress where
  address : Option String
  name : Option String
deriving DecidableEq, Repr

/-- `references` of a parsed mail: absent, one string, or a list. -/
inductive References where
  | absent
  | text (value : String)
  | list (values : List String)
deriving DecidableEq, Repr

/-- `ParsedMail`, with the members the adapter reads.  `from` lists the entries
of all its groups. -/
structure ParsedMail where
  messageId : Option String
  inReplyTo : Option String := none
  references : References := .absent
  subject : Option String := none
  date : Option Date := none
  fromEntries : List RawAddress := []
  text : Option String := none
  autoSubmitted : Option String := none
deriving DecidableEq, Repr

/-- The envelope of an email. -/
structure Envelope where
  messageId : Option String
  subject : Option String := none
  fromEntries : List RawAddress := []
deriving DecidableEq, Repr

/-- The journal payload of an email.  A date stands for its ISO text. -/
structure EmailPayload where
  uid : Int
  uidValidity : String
  messageId : Option String
  inReplyTo : Option String := none
  references : List String := []
  subject : Option String := none
  date : Option Date := none
  fromAddress : Option Address := none
  text : String
  autoSubmitted : Option String := none
  oversized : Bool := false
deriving DecidableEq, Repr

/-! ## The payload of a parsed mail -/

/-- Journaled text is cut to so many code units. -/
def MAX_TEXT_CHARS : Nat := 100000

/-- `slice(0, n)`.  A character that the cut would halve is left out. -/
def sliceChars : Nat → List Char → List Char
  | _, [] => []
  | n, c :: cs =>
      if (charUnits c).length ≤ n then c :: sliceChars (n - (charUnits c).length) cs else []

/-- `text.slice(0, n)`. -/
def slice (n : Nat) (text : String) : String := String.ofList (sliceChars n text.toList)

/-- `split(/\s+/).filter(Boolean)`. -/
def splitWords (text : String) : List String :=
  ((text.toList.splitOnP isSpace).map String.ofList).filter (· ≠ "")

/-- The references as a list. -/
def References.toList : References → List String
  | .absent => []
  | .text value => splitWords value
  | .list values => values

/-- `firstAddress`. -/
def firstAddress (js : Runtime) (entries : List RawAddress) : Option Address :=
  entries.findSome? fun entry =>
    (truthy entry.address).map fun address => ⟨js.toLowerCase address, entry.name.getD ""⟩

/-- `emailToJournalPayload`. -/
def emailToJournalPayload (js : Runtime) (parsed : ParsedMail) (uid : Int)
    (uidValidity : String) : EmailPayload where
  uid := uid
  uidValidity := uidValidity
  messageId := parsed.messageId
  inReplyTo := parsed.inReplyTo
  references := parsed.references.toList
  subject := parsed.subject
  date := parsed.date
  fromAddress := firstAddress js parsed.fromEntries
  text := slice MAX_TEXT_CHARS (parsed.text.getD "")
  autoSubmitted := parsed.autoSubmitted

/-- The text of an oversized email. -/
def OVERSIZED_TEXT : String := "This email is too large to import. Open it in your mail client."

/-- The payload of an email that is journaled from its envelope only. -/
def oversizedPayload (js : Runtime) (envelope : Option Envelope) (uid : Int)
    (uidValidity : String) : EmailPayload where
  uid := uid
  uidValidity := uidValidity
  messageId := envelope.bind Envelope.messageId
  subject := envelope.bind Envelope.subject
  fromAddress := (envelope.bind fun e => e.fromEntries.head?).map fun f =>
    ⟨js.toLowerCase (f.address.getD ""), f.name.getD ""⟩
  text := OVERSIZED_TEXT
  oversized := true

/-- The string members of the payload. -/
def EmailPayload.json (p : EmailPayload) : Payload :=
  [("uid", some (toString p.uid)), ("uidValidity", some p.uidValidity), ("messageId", p.messageId),
    ("inReplyTo", p.inReplyTo), ("subject", p.subject), ("text", some p.text),
    ("autoSubmitted", p.autoSubmitted)].filterMap fun m => m.2.map fun value => (m.1, value)

/-! ## The key of an event -/

/-- The key of an email without a usable Message-ID. -/
def uidKey (uidValidity : String) (uid : Int) : String := "uid:" ++ uidValidity ++ ":" ++ toString uid

/-- `eventKeyFor`. -/
def eventKeyFor (js : Runtime) (messageId : Option String) (uidValidity : String) (uid : Int) :
    String :=
  match truthy messageId with
  | none => uidKey uidValidity uid
  | some messageId =>
      if (codeUnits ("mid:" ++ messageId)).length ≤ 255 then "mid:" ++ messageId
      else "mid-sha256:" ++ js.sha256 messageId

end Vynor.Email
