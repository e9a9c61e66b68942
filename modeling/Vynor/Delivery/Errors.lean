import Vynor.Schema

/-!
# Provider errors

What a failed provider call is turned into, whether it is worth a retry, and
the text an agent sees for it.
-/

namespace Vynor.Delivery

/-- `PROVIDER_ERROR_CATEGORIES`. -/
inductive ProviderErrorCategory where
  | authentication
  | permission
  | rateLimited
  | invalidRequest
  | recipientUnavailable
  | replyWindowClosed
  | notFound
  | configuration
  | transient
deriving DecidableEq, Repr

/-- `ChannelProviderError`. -/
structure ChannelProviderError where
  provider : ChannelProviderType
  category : ProviderErrorCategory
  code : String
  message : String
deriving DecidableEq, Repr

/-- Worth retrying later with backoff. -/
def ChannelProviderError.retryable (e : ChannelProviderError) : Bool :=
  e.category = .rateLimited || e.category = .transient

/-- The stored credentials no longer work; an admin has to reconnect the channel. -/
def ChannelProviderError.requiresReconnect (e : ChannelProviderError) : Bool :=
  e.category = .authentication || e.category = .permission

/-- What a `try` block of the dispatcher can catch: a categorised error, a
`CredentialCipherError`, or anything else, with its message if it is an
`Error`. -/
inductive Thrown where
  | provider (error : ChannelProviderError)
  | cipher (message : String)
  | other (message : Option String)
deriving DecidableEq, Repr

/-- `toChannelProviderError` with the fallback category `send` gives it. -/
def toChannelProviderError (provider : ChannelProviderType) : Thrown → ChannelProviderError
  | .provider error => error
  | .cipher message => ⟨provider, .authentication, "PROVIDER_CALL_FAILED", message⟩
  | .other message =>
      ⟨provider, .transient, "PROVIDER_CALL_FAILED",
        message.getD "The provider call failed unexpectedly."⟩

/-- `providerLabel`. -/
def providerLabel : ChannelProviderType → String
  | .whatsappCloud => "WhatsApp Cloud"
  | .metaMessenger => "Messenger"
  | .metaInstagram => "Instagram"
  | .telegramBot => "Telegram Bot"
  | .emailSmtpImap => "email server"
  | .lineMessaging => "LINE Messaging"
  | .webchatEmbed => "web chat"
  | .customWebhook => "custom"

/-- `describeSendFailure`. -/
def describeSendFailure (error : ChannelProviderError) : String :=
  let provider := providerLabel error.provider
  match error.category with
  | .replyWindowClosed =>
      if error.provider = .whatsappCloud then
        "More than 24 hours have passed since the customer last wrote. WhatsApp only accepts " ++
          "approved template messages until they reply again."
      else
        "More than 24 hours have passed since the customer last wrote, so " ++ provider ++
          " will not deliver a normal reply until they message again."
  | .authentication | .permission =>
      provider ++ " rejected the channel credentials (" ++ error.message ++
        "). An admin needs to reconnect the channel."
  | .rateLimited =>
      provider ++ " is rate limiting this channel. Wait a few minutes and retry."
  | .transient =>
      "Could not reach " ++ provider ++ " after several attempts: " ++ error.message
  | _ => error.message

end Vynor.Delivery
