import Vynor.Adapters.CustomApi
import Vynor.Adapters.Email
import Vynor.Adapters.Line
import Vynor.Adapters.Messaging
import Vynor.Adapters.Telegram
import Vynor.Adapters.Webchat
import Vynor.Adapters.WhatsApp

/-!
# The adapters

`normalizeInbound` of each provider, and what its contract promises: it does not
throw, and every result is what its schema accepts.
-/

namespace Vynor.Adapters

/-- What an adapter asks while it normalizes an event. -/
structure Surroundings where
  js : Email.Runtime
  toUpperCase : String → String
  /-- What the look-up of the sender's profile gives, if it succeeds. -/
  profile : Option ContactProfile
  now : Date

/-- Surroundings without a profile. -/
def exampleSurroundings : Surroundings where
  js := ⟨⟨id, id⟩, fun _ => none⟩
  toUpperCase := id
  profile := none
  now := 1700000000000

section Normalize

variable (around : Surroundings) (account : AdapterAccount) (context : NormalizeContext)

def normalizeInbound (provider : ChannelProviderType) (payload : Record) :
    Except Thrown (List NormalizedInboundResult) :=
  match provider with
  | .whatsappCloud => WhatsApp.normalizeInbound payload context account around.now
  | .metaMessenger =>
      Messaging.normalizeMessagingEvent payload context account
        (Messaging.messengerOptions around.profile) around.now
  | .metaInstagram =>
      Messaging.normalizeMessagingEvent payload context account
        (Messaging.instagramOptions around.profile) around.now
  | .telegramBot => Telegram.normalizeInbound payload context account around.now
  | .emailSmtpImap => .ok (Email.normalizeInbound around.js payload context account around.now)
  | .lineMessaging => Line.normalizeInbound payload context account around.profile around.now
  | .webchatEmbed =>
      .ok (Webchat.normalizeInbound around.toUpperCase payload context account around.now)
  | .customWebhook => .ok (CustomApi.normalizeInbound payload context account around.now)

end Normalize

/-- The contract: results, and each of them as its schema accepts it. -/
def Conforms (zod : Zod) (outcome : Except Thrown (List NormalizedInboundResult)) : Prop :=
  ∃ results, outcome = .ok results ∧ ∀ r ∈ results, r.accepted zod = true

section Conforms

variable {zod : Zod}

@[simp] theorem conforms_ok {results : List NormalizedInboundResult} :
    Conforms zod (.ok results) ↔ ∀ r ∈ results, r.accepted zod = true := by
  simp [Conforms]

@[simp] theorem not_conforms_error {e : Thrown} : ¬ Conforms zod (.error e) := by
  rintro ⟨results, h, _⟩
  cases h

/-- Results that need a value which may be missing. -/
theorem conforms_map {α : Type} {value : Except Thrown α} {f : α → List NormalizedInboundResult} :
    Conforms zod (value.map f) ↔ ∃ a, value = .ok a ∧ ∀ r ∈ f a, r.accepted zod = true := by
  cases value with
  | error e => simp [Except.map]
  | ok a => simp [Except.map]

end Conforms

end Vynor.Adapters
