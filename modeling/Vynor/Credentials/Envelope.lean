import Vynor.Contracts.Inbound
import Vynor.Credentials.Cipher

/-!
# Credential envelopes

How the secrets of a channel are sealed into a `ProviderCredentialEnvelope` and
opened again.  An envelope is stored as a JSON value, and is checked by its
schema before it is opened.

`z.string().datetime()` is no code of the repository.  It takes what
`toISOString` writes of a year with four digits (`IsoDates`).
-/

namespace Vynor.Credentials

open Lib (Bytes Json OrderedMap.set)

/-- The texts of moments, and the check of `z.string().datetime()`. -/
structure IsoDates where
  toISOString : Date → String
  isDatetime : String → Bool
  isDatetime_toISOString : ∀ moment, isDatetime (toISOString moment) = hasFourDigitYear moment

/-! ## The schema -/

/-- `ProviderTypeSchema`. -/
def PROVIDER_TYPES : List String :=
  ["meta_whatsapp", "instagram", "facebook_messenger", "telegram", "email_smtp", "line_messaging",
    "webchat", "openai", "anthropic", "custom_webhook"]

/-- `AuthTypeSchema`. -/
def AUTH_TYPES : List String := ["bearer_token", "api_key", "oauth2", "hmac_key", "basic_auth"]

/-- `SecretStorageTypeSchema`. -/
def SECRET_STORAGE_TYPES : List String := ["env", "vault", "encrypted_db", "aws_secrets_manager"]

/-- `z.string().min(1)`. -/
def nonEmpty? : Option Json → Option String
  | some (.string text) => if text = "" then none else some text
  | _ => none

/-- `z.enum(values)`. -/
def isEnum (values : List String) : Option Json → Bool
  | some (.string text) => text ∈ values
  | _ => false

def isString : Option Json → Bool
  | some (.string _) => true
  | _ => false

/-- `schema.optional()`. -/
def isOptional (check : Option Json → Bool) (value : Option Json) : Bool :=
  value.isNone || check value

/-- `SecretReferenceSchema`. -/
def isSecretReference : Option Json → Bool
  | some value =>
      isEnum SECRET_STORAGE_TYPES (value.property? "type") &&
        (nonEmpty? (value.property? "key")).isSome && isOptional isString (value.property? "version")
  | none => false

/-- `z.record(z.string(), z.string())`. -/
def isStringRecord : Option Json → Bool
  | some (.object members) => members.all fun m => isString (some m.2)
  | _ => false

/-- What `openChannelSecrets` uses of an envelope that was parsed. -/
structure ProviderCredentialEnvelope where
  accountId : String
  encrypted : EncryptedValue

variable (dates : IsoDates) (aead : Aead)

/-- `z.string().datetime()`. -/
def isDatetime : Option Json → Bool
  | some (.string text) => dates.isDatetime text
  | _ => false

/-- `ProviderCredentialEnvelopeSchema.safeParse`. -/
def safeParse (envelope : Json) : Option ProviderCredentialEnvelope :=
  let member := envelope.property?
  match nonEmpty? (member "accountId"), nonEmpty? (member "encryptedPayload"),
    nonEmpty? (member "keyId"), nonEmpty? (member "iv"), nonEmpty? (member "tag") with
  | some accountId, some ciphertext, some keyId, some iv, some tag =>
      if isEnum PROVIDER_TYPES (member "provider") && isEnum AUTH_TYPES (member "authType") &&
          isOptional isSecretReference (member "secretRef") &&
          isOptional isStringRecord (member "metadata") &&
          isOptional (isDatetime dates) (member "expiresAt") &&
          isOptional (isDatetime dates) (member "rotatedAt") &&
          isDatetime dates (member "createdAt") then
        some { accountId, encrypted := { keyId, iv, tag, ciphertext } }
      else none
  | _, _, _, _, _ => none

/-! ## Sealing and opening -/

/-- `ENVELOPE_PROVIDERS`. -/
def envelopeProvider : ChannelProviderType → String
  | .whatsappCloud => "meta_whatsapp"
  | .metaMessenger => "facebook_messenger"
  | .metaInstagram => "instagram"
  | .telegramBot => "telegram"
  | .emailSmtpImap => "email_smtp"
  | .lineMessaging => "line_messaging"
  | .webchatEmbed => "webchat"
  | .customWebhook => "custom_webhook"

/-- `ENVELOPE_AUTH_TYPES`. -/
def envelopeAuthType : ChannelProviderType → String
  | .whatsappCloud => "bearer_token"
  | .metaMessenger => "bearer_token"
  | .metaInstagram => "bearer_token"
  | .telegramBot => "bearer_token"
  | .emailSmtpImap => "basic_auth"
  | .lineMessaging => "bearer_token"
  | .webchatEmbed => "hmac_key"
  | .customWebhook => "hmac_key"

/-- `aadFor`. -/
def aadFor (providerAccountId : String) : String := "vynor:provider-account:" ++ providerAccountId

/-- The parameters of `sealChannelSecrets`, with the secrets as the JSON value
of them. -/
structure SealParams where
  provider : ChannelProviderType
  providerAccountId : String
  secrets : Json
  createdAt : Option Date := none
  rotatedAt : Option Date := none

/-- The envelope of an encrypted value. -/
def envelopeOf (params : SealParams) (now : Date) (value : EncryptedValue) : Json :=
  .object ([("provider", .string (envelopeProvider params.provider)),
    ("accountId", .string params.providerAccountId),
    ("authType", .string (envelopeAuthType params.provider)),
    ("encryptedPayload", .string value.ciphertext),
    ("keyId", .string value.keyId),
    ("iv", .string value.iv),
    ("tag", .string value.tag),
    ("createdAt", .string (dates.toISOString (params.createdAt.getD now)))] ++
      (params.rotatedAt.toList.map fun moment =>
        ("rotatedAt", .string (dates.toISOString moment))))

/-- `sealChannelSecrets`, at a moment and with the random bytes that are drawn. -/
def sealChannelSecrets (cipher : CredentialCipher) (params : SealParams) (now : Date) (iv : Iv) :
    Except CredentialError Json :=
  (cipher.encryptJson aead iv params.secrets (aadFor params.providerAccountId)).map
    (envelopeOf dates params now)

def notAnEnvelope : CredentialError :=
  .cipher "Stored channel credentials are not an encrypted envelope. Reconnect the channel."

def otherChannel : CredentialError :=
  .cipher "Stored channel credentials belong to another channel."

/-- `openChannelSecrets`. -/
def openChannelSecrets (cipher : CredentialCipher) (envelope : Json) (providerAccountId : String) :
    Except CredentialError Json :=
  match safeParse dates envelope with
  | none => .error notAnEnvelope
  | some parsed =>
      if parsed.accountId ≠ providerAccountId then .error otherChannel
      else cipher.decryptJson aead parsed.encrypted (aadFor providerAccountId)

/-- An envelope with another account ID in it. -/
def withAccountId (envelope : Json) (accountId : Json) : Json :=
  match envelope with
  | .object members => .object (OrderedMap.set members "accountId" accountId)
  | other => other

end Vynor.Credentials
