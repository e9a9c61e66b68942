import Vynor.Adapters.Payload
import Vynor.Contracts.Delivery
import Vynor.Schema

/-!
# Normalized results

The contracts of `normalizeInbound`, and what their schemas accept.  A member of
a result may hold what no schema allows, so the types leave room for it: a value
looked up in an object literal may be one that every object inherits
(`Looked.inherited`), a coordinate may be no number, a size any number.  A time
stamp is the ISO text of a moment, or a text that was passed on.

The checks of `z.string().datetime()`, `.url()` and `.email()` are arguments,
as `zod` is no code of the repository.  The first one takes the ISO text of a
moment whose year has four digits.
-/

namespace Vynor

open Lib (Json Number)
open Adapters (Looked Record)

/-- The string checks of `zod`. -/
structure Zod where
  isDatetime : String → Bool
  isUrl : String → Bool
  isEmail : String → Bool

/-! ## Time stamps -/

/-- A time stamp of a result. -/
inductive Timestamp where
  | iso (moment : Date)
  | text (value : String)
deriving DecidableEq, Repr

/-- `toISOString` writes the year with four digits. -/
def hasFourDigitYear (moment : Date) : Bool :=
  -62167219200000 ≤ moment && moment ≤ 253402300799999

/-- `z.string().datetime()`. -/
def Timestamp.accepted (zod : Zod) : Timestamp → Bool
  | .iso moment => hasFourDigitYear moment
  | .text value => zod.isDatetime value

/-! ## Content -/

inductive InteractiveType where
  | buttonReply
  | listReply
  | quickReply
deriving DecidableEq, Repr

inductive ReactionAction where
  | react
  | unreact
deriving DecidableEq, Repr

/-- An entry of `phones` or `emails`. -/
structure CardEntry where
  value : String
  type : Option String := none
deriving DecidableEq, Repr

/-- `InboundContactCard`.  An empty list stands for a missing one. -/
structure ContactCard where
  formattedName : String
  firstName : Option String := none
  lastName : Option String := none
  phones : List CardEntry := []
  emails : List CardEntry := []
  organization : Option String := none
deriving DecidableEq, Repr

/-- `InboundMediaContent`. -/
structure MediaContent where
  mediaType : Looked MediaType
  mimeType : Looked String
  url : Option String := none
  providerMediaId : Option String := none
  filename : Option String := none
  sizeBytes : Option Rat := none
  caption : Option String := none
  sha256 : Option String := none
deriving DecidableEq, Repr

/-- `InboundMessageContent`.  `rawUrl` is the only member of a `rawPayload`. -/
inductive InboundMessageContent where
  | text (text : String)
  | media (media : MediaContent)
  | location (latitude longitude : Number) (name address : Option String)
  | contact (contacts : List ContactCard)
  | interactive (interactiveType : InteractiveType) (id title : String)
      (description : Option String)
  | reaction (emoji targetProviderMessageId : String) (action : ReactionAction)
  | unsupported (rawType : String) (description : Option (Looked String)) (rawUrl : Option String)
deriving DecidableEq, Repr

/-- `Number.MAX_SAFE_INTEGER`. -/
def MAX_SAFE_INTEGER : Int := 9007199254740991

/-- `z.number().int().nonnegative()`. -/
def isSize (value : Rat) : Bool := value.den = 1 && 0 ≤ value.num && value.num ≤ MAX_SAFE_INTEGER

/-- `InboundMediaContentSchema`. -/
def MediaContent.accepted (zod : Zod) (media : MediaContent) : Bool :=
  media.mediaType.isOwn && media.mimeType.isOwn && media.url.all zod.isUrl &&
    media.sizeBytes.all isSize

/-- `InboundMessageContentSchema`. -/
def InboundMessageContent.accepted (zod : Zod) : InboundMessageContent → Bool
  | .text _ => true
  | .media content => content.accepted zod
  | .location latitude longitude _ _ => latitude.isFinite && longitude.isFinite
  | .contact contacts =>
      !contacts.isEmpty && contacts.all fun card => card.emails.all fun e => zod.isEmail e.value
  | .interactive _ _ _ _ => true
  | .reaction _ _ _ => true
  | .unsupported _ description _ => description.all Looked.isOwn

/-! ## Results -/

/-- `InboundParticipant`.  The members of its metadata are strings. -/
structure Participant where
  identifier : String
  displayName : Option String := none
  avatarUrl : Option String := none
  metadata : List (String × String) := []
deriving DecidableEq, Repr

/-- `rawEventRef`. -/
structure RawEventRef where
  providerEventId : Id
  providerEventKey : String
deriving DecidableEq, Repr

/-- `NormalizeContext`. -/
structure NormalizeContext where
  workspaceId : Id
  providerAccountId : Id
  rawEventRef : RawEventRef
deriving DecidableEq, Repr

/-- `NormalizedInboundMessage` without `messageId`.  `replyTarget` is the target
of its `replyContext`. -/
structure NormalizedInboundMessage where
  context : NormalizeContext
  channelType : ChannelType
  provider : ChannelProviderType
  providerMessageId : String
  sender : Participant
  recipient : Participant
  timestamp : Timestamp
  content : InboundMessageContent
  replyTarget : Option String := none
  metadata : Record := []

/-- `NormalizedDeliveryReceipt`, with the `error` it reports and its
`metadata.watermark`. -/
structure NormalizedDeliveryReceipt where
  context : NormalizeContext
  providerMessageId : String
  recipientIdentifier : String
  status : Looked DeliveryStatus
  timestamp : Timestamp
  error : Option (String × String) := none
  watermark : Option Date := none
deriving DecidableEq, Repr

/-- `NormalizedInboundResult`. -/
inductive NormalizedInboundResult where
  | message (data : NormalizedInboundMessage)
  | deliveryReceipt (data : NormalizedDeliveryReceipt)
  | ignored (reason : String)

/-- `InboundParticipantSchema`. -/
def Participant.accepted (zod : Zod) (participant : Participant) : Bool :=
  participant.avatarUrl.all zod.isUrl

/-- `NormalizedInboundMessageSchema` without `messageId`. -/
def NormalizedInboundMessage.accepted (zod : Zod) (data : NormalizedInboundMessage) : Bool :=
  data.sender.accepted zod && data.recipient.accepted zod && data.timestamp.accepted zod &&
    data.content.accepted zod

/-- `NormalizedDeliveryReceiptSchema`. -/
def NormalizedDeliveryReceipt.accepted (zod : Zod) (data : NormalizedDeliveryReceipt) : Bool :=
  data.status.isOwn && data.timestamp.accepted zod

/-- The schema of a result. -/
def NormalizedInboundResult.accepted (zod : Zod) : NormalizedInboundResult → Bool
  | .message data => data.accepted zod
  | .deliveryReceipt data => data.accepted zod
  | .ignored _ => true

end Vynor
