import Vynor.Contracts.Inbound
import Vynor.Lib.IsoDate

/-!
# The text of a content

`summarizeMessageContent` of everything that the two content unions allow, and of
the contents an adapter makes up beyond them.  It promises a text that is not
empty.  It keeps the promise unless the text is one that the content brings along
as it is: the title of a reply, the body of an interactive message, or the
description of an unsupported one (`summary_inbound_iff`, `summary_outbound_iff`).
-/

namespace Vynor

open Lib (Json Number numberText)
open Adapters (Looked Record)

/-! ## Outbound contents -/

inductive ComponentType where
  | header
  | body
  | button
deriving DecidableEq, Repr

/-- An entry of `components`. -/
structure TemplateComponent where
  type : ComponentType
  parameters : List Record

/-- An entry of `buttons`. -/
structure ActionButton where
  id : String
  title : String
deriving DecidableEq, Repr

/-- An entry of `rows`. -/
structure ListRow where
  id : String
  title : String
  description : Option String := none
deriving DecidableEq, Repr

/-- An entry of `sections`. -/
structure ListSection where
  title : String
  rows : List ListRow
deriving DecidableEq, Repr

/-- `action` of an interactive content. -/
inductive InteractiveAction where
  | buttons (buttons : List ActionButton)
  | list (buttonTitle : String) (sections : List ListSection)
deriving DecidableEq, Repr

/-- `OutboundMediaContent`. -/
structure OutboundMediaContent where
  mediaType : MediaType
  mimeType : String
  url : Option String := none
  providerMediaId : Option String := none
  filename : Option String := none
  caption : Option String := none
deriving DecidableEq, Repr

/-- `OutboundMessageContent`. -/
inductive OutboundMessageContent where
  | text (text : String)
  | media (media : OutboundMediaContent)
  | template (templateName language : String) (components : List TemplateComponent)
  | location (latitude longitude : Number) (name address : Option String)
  | interactive (bodyText : String) (headerText footerText : Option String)
      (action : InteractiveAction)

/-- The schema of an action. -/
def InteractiveAction.accepted : InteractiveAction → Bool
  | .buttons items => items.length ≤ 3
  | .list _ _ => true

/-- `OutboundMessageContentSchema`. -/
def OutboundMessageContent.accepted (zod : Zod) : OutboundMessageContent → Bool
  | .text body => body ≠ ""
  | .media content => content.url.all zod.isUrl
  | .template _ _ _ => true
  | .location latitude longitude _ _ => latitude.isFinite && longitude.isFinite
  | .interactive _ _ _ action => action.accepted

/-! ## Summaries -/

/-- `AnyMessageContent`. -/
inductive AnyMessageContent where
  | inbound (content : InboundMessageContent)
  | outbound (content : OutboundMessageContent)

/-- `toFixed(digits)`.  The larger one of two neighbours is taken. -/
def toFixed (digits : Nat) : Number → String
  | .nan => "NaN"
  | .infinite negative => if negative then "-Infinity" else "Infinity"
  | .finite x =>
      if 10 ^ 21 ≤ |x| then numberText x
      else
        let n := (|x| * 10 ^ digits + 1 / 2).floor.toNat
        (if x < 0 then "-" else "") ++ toString (n / 10 ^ digits) ++
          if digits = 0 then ""
          else "." ++ String.ofList (Lib.IsoDate.pad digits (n % 10 ^ digits))

/-- `mediaLabel` of what a literal has under the name of a kind.  What every
object inherits has no kind. -/
def kindLabel : Looked MediaType → String
  | .own kind => mediaLabel kind
  | .inherited => "Attachment"

def textSummary (text : String) : String := (truthy (some (trim text))).getD "(empty message)"

def mediaSummary (label : String) (filename caption : Option String) : String :=
  match truthy (caption.map trim) with
  | some caption => caption
  | none =>
      match truthy filename with
      | some filename => label ++ ": " ++ filename
      | none => label

def locationSummary (latitude longitude : Number) (name address : Option String) : String :=
  match [name, address].filterMap truthy with
  | [] => "Location: " ++ toFixed 5 latitude ++ ", " ++ toFixed 5 longitude
  | parts => "Location: " ++ ", ".intercalate parts

/-- `summarizeMessageContent`.  A description may be a value that every object
inherits, and then it is no string. -/
def AnyMessageContent.summarizeMessageContent : AnyMessageContent → Looked String
  | .inbound (.text text) => .own (textSummary text)
  | .inbound (.media media) =>
      .own (mediaSummary (kindLabel media.mediaType) media.filename media.caption)
  | .inbound (.location latitude longitude name address) =>
      .own (locationSummary latitude longitude name address)
  | .inbound (.contact contacts) =>
      .own ("Contact: " ++ ", ".intercalate (contacts.map ContactCard.formattedName))
  | .inbound (.interactive _ _ title _) => .own title
  | .inbound (.reaction emoji _ action) =>
      .own (if action = .unreact then "Removed a reaction" else "Reacted " ++ emoji)
  | .inbound (.unsupported rawType description _) =>
      description.getD (.own ("Unsupported message (" ++ rawType ++ ")"))
  | .outbound (.text text) => .own (textSummary text)
  | .outbound (.media media) =>
      .own (mediaSummary (mediaLabel media.mediaType) media.filename media.caption)
  | .outbound (.template templateName _ _) => .own ("Template: " ++ templateName)
  | .outbound (.location latitude longitude name address) =>
      .own (locationSummary latitude longitude name address)
  | .outbound (.interactive bodyText _ _ _) => .own bodyText

/-- The members of a content that its stored row is made from, unless one of them
is a value that every object inherits. -/
def InboundMessageContent.plain? : InboundMessageContent → Option MessageContent
  | .text body => some (.text body)
  | .media content =>
      match content.mediaType with
      | .own kind => some (.media kind content.filename content.caption)
      | .inherited => none
  | .location latitude longitude name address =>
      some (.location (toFixed 5 latitude) (toFixed 5 longitude) name address)
  | .contact contacts => some (.contact (contacts.map ContactCard.formattedName))
  | .interactive _ id title _ => some (.interactive id title)
  | .reaction emoji _ action => some (.reaction emoji (action = .unreact))
  | .unsupported rawType none _ => some (.unsupported rawType none)
  | .unsupported rawType (some (.own description)) _ =>
      some (.unsupported rawType (some description))
  | .unsupported _ (some .inherited) _ => none

/-- The summary of a content is that of the members its row is made from. -/
theorem summarizeMessageContent_of_plain? {content : InboundMessageContent} {plain : MessageContent}
    (h : content.plain? = some plain) :
    (AnyMessageContent.inbound content).summarizeMessageContent =
      .own (summarizeMessageContent plain) := by
  cases content with
  | text body =>
      cases h
      rfl
  | media content =>
      rw [InboundMessageContent.plain?] at h
      split at h
      · next kind hkind =>
          cases h
          rw [AnyMessageContent.summarizeMessageContent, hkind]
          rfl
      · cases h
  | location latitude longitude name address =>
      cases h
      rfl
  | contact contacts =>
      cases h
      rfl
  | interactive interactiveType id title description =>
      cases h
      rfl
  | reaction emoji target action =>
      cases h
      simp only [AnyMessageContent.summarizeMessageContent, summarizeMessageContent,
        decide_eq_true_eq]
  | unsupported rawType description rawUrl =>
      cases description with
      | none =>
          cases h
          rfl
      | some description =>
          cases description with
          | own description =>
              cases h
              rfl
          | inherited => cases h

/-! ## Texts that are not empty -/

section NotEmpty

variable {s t : String}

theorem append_ne_empty (h : s ≠ "") : s ++ t ≠ "" :=
  fun hempty => h (String.append_eq_empty_iff.mp hempty).1

theorem textSummary_ne_empty (text : String) : textSummary text ≠ "" := by
  rw [textSummary]
  cases htrim : truthy (some (trim text)) with
  | none => decide
  | some trimmed => exact (truthy_eq_some.mp htrim).2

theorem mediaLabel_ne_empty (kind : MediaType) : mediaLabel kind ≠ "" := by
  cases kind <;> decide

theorem kindLabel_ne_empty (kind : Looked MediaType) : kindLabel kind ≠ "" := by
  cases kind with
  | own kind => exact mediaLabel_ne_empty kind
  | inherited => decide

theorem mediaSummary_ne_empty {label : String} (h : label ≠ "") (filename caption : Option String) :
    mediaSummary label filename caption ≠ "" := by
  rw [mediaSummary]
  split
  · next caption hcaption => exact (truthy_eq_some.mp hcaption).2
  · split
    · rw [String.append_assoc]
      exact append_ne_empty h
    · exact h

theorem locationSummary_ne_empty (latitude longitude : Number) (name address : Option String) :
    locationSummary latitude longitude name address ≠ "" := by
  rw [locationSummary]
  split
  · rw [String.append_assoc, String.append_assoc]
    exact append_ne_empty (by decide)
  · exact append_ne_empty (by decide)

end NotEmpty

/-! ## Empty texts -/

/-- The content brings its text along as it is, and the text is empty. -/
def InboundMessageContent.HasEmptyText : InboundMessageContent → Prop
  | .interactive _ _ title _ => title = ""
  | .unsupported _ description _ => description = some (.own "")
  | _ => False

/-- The content brings its text along as it is, and the text is empty. -/
def OutboundMessageContent.HasEmptyText : OutboundMessageContent → Prop
  | .interactive bodyText _ _ _ => bodyText = ""
  | _ => False

theorem summary_inbound_iff {content : InboundMessageContent} :
    (AnyMessageContent.inbound content).summarizeMessageContent = .own "" ↔
      content.HasEmptyText := by
  cases content with
  | text body =>
      simp [AnyMessageContent.summarizeMessageContent, InboundMessageContent.HasEmptyText,
        textSummary_ne_empty]
  | media content =>
      simp [AnyMessageContent.summarizeMessageContent, InboundMessageContent.HasEmptyText,
        mediaSummary_ne_empty (kindLabel_ne_empty _)]
  | location latitude longitude name address =>
      simp [AnyMessageContent.summarizeMessageContent, InboundMessageContent.HasEmptyText,
        locationSummary_ne_empty]
  | contact contacts =>
      simp [AnyMessageContent.summarizeMessageContent, InboundMessageContent.HasEmptyText]
  | interactive interactiveType id title description =>
      simp [AnyMessageContent.summarizeMessageContent, InboundMessageContent.HasEmptyText]
  | reaction emoji target action =>
      cases action <;>
        simp [AnyMessageContent.summarizeMessageContent, InboundMessageContent.HasEmptyText]
  | unsupported rawType description rawUrl =>
      cases description with
      | none => simp [AnyMessageContent.summarizeMessageContent, InboundMessageContent.HasEmptyText]
      | some description =>
          simp [AnyMessageContent.summarizeMessageContent, InboundMessageContent.HasEmptyText]

theorem summary_outbound_iff {content : OutboundMessageContent} :
    (AnyMessageContent.outbound content).summarizeMessageContent = .own "" ↔
      content.HasEmptyText := by
  cases content with
  | text body =>
      simp [AnyMessageContent.summarizeMessageContent, OutboundMessageContent.HasEmptyText,
        textSummary_ne_empty]
  | media content =>
      simp [AnyMessageContent.summarizeMessageContent, OutboundMessageContent.HasEmptyText,
        mediaSummary_ne_empty (mediaLabel_ne_empty _)]
  | template templateName language components =>
      simp [AnyMessageContent.summarizeMessageContent, OutboundMessageContent.HasEmptyText]
  | location latitude longitude name address =>
      simp [AnyMessageContent.summarizeMessageContent, OutboundMessageContent.HasEmptyText,
        locationSummary_ne_empty]
  | interactive bodyText headerText footerText action =>
      simp [AnyMessageContent.summarizeMessageContent, OutboundMessageContent.HasEmptyText]

/-- The summary of an accepted content is a string. -/
theorem exists_summary_of_accepted {zod : Zod} {content : InboundMessageContent}
    (h : content.accepted zod = true) :
    ∃ text, (AnyMessageContent.inbound content).summarizeMessageContent = .own text := by
  cases content with
  | unsupported rawType description rawUrl =>
      cases description with
      | none => exact ⟨_, rfl⟩
      | some description =>
          cases description with
          | own description => exact ⟨description, rfl⟩
          | inherited => cases h
  | _ => exact ⟨_, rfl⟩

theorem exists_summary_outbound (content : OutboundMessageContent) :
    ∃ text, (AnyMessageContent.outbound content).summarizeMessageContent = .own text := by
  cases content <;> exact ⟨_, rfl⟩

end Vynor
