import Vynor.Lib.IpAddress

/-!
# Public endpoints

`endpoint-policy.ts`: the hosts that an administrator may name in a connection.
The servers of a mailbox and the endpoint of a custom channel must not be
private addresses.

The check reads the text of an address: the ranges of IPv4 by a mask over the
octets, an IPv6 address by its first letters, and an IPv4-mapped one by what
follows the prefix.
-/

namespace Vynor.Channels

open Lib Lib.IpAddress

/-! ## Addresses -/

/-- `ipv4ToInt`, of the text of an IPv4 address, whose octets are decimal. -/
def ipv4ToInt (ip : List Char) : BitVec 32 :=
  (ip.splitOn '.').foldl
    (fun acc octet => (acc <<< 8) + BitVec.ofNat 32 ((natural? 10 octet).getD 0)) 0

def PRIVATE_V4_RANGES : List (List Char × Nat) :=
  [ ("0.0.0.0".toList, 8),
    ("10.0.0.0".toList, 8),
    ("100.64.0.0".toList, 10),
    ("127.0.0.0".toList, 8),
    ("169.254.0.0".toList, 16),
    ("172.16.0.0".toList, 12),
    ("192.168.0.0".toList, 16),
    ("198.18.0.0".toList, 15),
    ("224.0.0.0".toList, 4) ]

/-- `mask`. -/
def maskOf (bits : Nat) : BitVec 32 :=
  if bits = 0 then 0 else BitVec.allOnes 32 <<< (32 - bits)

/-- `/^f[cd]/.test(normalized)`. -/
def isUniqueLocalText : List Char → Bool
  | 'f' :: c :: _ => c = 'c' || c = 'd'
  | _ => false

/-- `/^fe[89ab]/.test(normalized)`. -/
def isLinkLocalText : List Char → Bool
  | 'f' :: 'e' :: c :: _ => c = '8' || c = '9' || c = 'a' || c = 'b'
  | _ => false

/-- `isPrivateAddress`.  The text of an IPv6 address is ASCII. -/
def isPrivateAddress (ip : List Char) : Bool :=
  if isIP ip = 4 then
    PRIVATE_V4_RANGES.any fun (base, bits) =>
      ipv4ToInt ip &&& maskOf bits = ipv4ToInt base &&& maskOf bits
  else if isIP ip = 6 then
    let normalized := lowerCase ip
    if normalized = "::1".toList || normalized = "::".toList then true
    else if _h : mappedPrefix.isPrefixOf normalized then isPrivateAddress (normalized.drop 7)
    else isUniqueLocalText normalized || isLinkLocalText normalized
  else false
termination_by ip.length
decreasing_by
  have hle : 7 ≤ (lowerCase ip).length := (List.isPrefixOf_iff_prefix.mp _h).length_le
  have hlength : (lowerCase ip).length = ip.length := List.length_map ..
  rw [List.length_drop]
  omega

/-! ## Hosts -/

/-- What the policy uses of the runtime: `toLowerCase`, `lookup` of
`node:dns/promises`, and the constructor of `URL`, which may throw. -/
structure Runtime where
  toLowerCase : List Char → List Char
  lookup : List Char → Option (List (List Char))
  /-- The protocol and the hostname. -/
  parseUrl : List Char → Option (List Char × List Char)
  toLowerCase_ascii : ∀ text, (∀ c ∈ text, c.toNat < 128) → toLowerCase text = lowerCase text

/-- `replace(/^\[|\]$/g, '')`. -/
def withoutBrackets (text : List Char) : List Char :=
  let inner := if text.head? = some '[' then text.tail else text
  if inner.getLast? = some ']' then inner.dropLast else inner

/-- `isPrivateHostname`. -/
def isPrivateHostname (R : Runtime) (host : List Char) : Bool :=
  let name := withoutBrackets (R.toLowerCase host)
  if isIP name ≠ 0 then isPrivateAddress name
  else
    name = "localhost".toList || ".localhost".toList.isSuffixOf name ||
      ".local".toList.isSuffixOf name || ".internal".toList.isSuffixOf name || !name.contains '.'

/-- What is thrown: an API error, or the `TypeError` of a malformed URL. -/
inductive Refusal where
  | api (statusCode : Nat) (code message : String)
  | invalidUrl
deriving DecidableEq, Repr

/-- `CHANNEL_ENDPOINT_NOT_ALLOWED`. -/
def notAllowed (message : String) : Refusal := .api 422 "CHANNEL_ENDPOINT_NOT_ALLOWED" message

/-- `assertPublicHost`. -/
def assertPublicHost (R : Runtime) (host : List Char) (label : String) : Except Refusal Unit :=
  let reject := notAllowed (label ++ " \"" ++ String.ofList host ++
    "\" points to a private network address, which is not allowed.")
  if isPrivateHostname R host then .error reject
  else if isIP host ≠ 0 then .ok ()
  else if ((R.lookup host).getD []).any isPrivateAddress then .error reject
  else .ok ()

/-- `MailServerCredentials`, as far as the policy reads them. -/
structure MailServerCredentials where
  host : List Char

/-- `ChannelConnectionInput`, as far as the policy reads it. -/
inductive ChannelConnectionInput where
  | whatsappCloud
  | telegramBot
  | emailSmtpImap (imap smtp : MailServerCredentials)
  | metaMessenger
  | metaInstagram
  | lineMessaging
  | webchatEmbed
  | customWebhook (outboundUrl : List Char)

/-- `assertConnectionEndpointsAllowed`. -/
def assertConnectionEndpointsAllowed (R : Runtime) (connection : ChannelConnectionInput)
    (enforce : Bool) : Except Refusal Unit :=
  if !enforce then .ok ()
  else
    match connection with
    | .emailSmtpImap imap smtp => do
        assertPublicHost R imap.host "IMAP server"
        assertPublicHost R smtp.host "SMTP server"
    | .customWebhook outboundUrl =>
        match R.parseUrl outboundUrl with
        | none => .error .invalidUrl
        | some (protocol, hostname) =>
            if protocol ≠ "https:".toList then
              .error (notAllowed "The reply endpoint must use https://.")
            else assertPublicHost R hostname "Reply endpoint"
    | _ => .ok ()

end Vynor.Channels
