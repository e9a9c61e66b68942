import Vynor.Lib.Utf8

/-!
# Signatures

The tags that the service makes and compares: HMAC-SHA256 as text.  The hash is
a parameter.  What a proof needs of it is that nobody makes a tag without the
key, and `Unforged` says so of a tag that is presented for a text.
-/

namespace Vynor.Adapters

open Lib (Bytes)

/-- HMAC-SHA256: the digest of a payload under a key. -/
abbrev Hmac := Bytes → Bytes → Bytes

/-- `hmacSha256Hex`. -/
def hmacSha256Hex (hmac : Hmac) (secret : String) (payload : Bytes) : String :=
  String.ofList (Lib.Bytes.hexChars (hmac (Lib.Utf8.encode secret) payload))

/-- `hmacSha256Base64`. -/
def hmacSha256Base64 (hmac : Hmac) (secret : String) (payload : Bytes) : String :=
  Lib.Bytes.toBase64 (hmac (Lib.Utf8.encode secret) payload)

/-- `createHmac('sha256', key).update(text).digest('base64url')`. -/
def hmacBase64Url (hmac : Hmac) (key text : Bytes) : String := Lib.Bytes.toBase64Url (hmac key text)

/-- Tags in this form are the same where the digests are. -/
theorem hmacBase64Url_inj {hmac : Hmac} {key text text' : Bytes}
    (h : hmacBase64Url hmac key text = hmacBase64Url hmac key text') :
    hmac key text = hmac key text' := by
  have hbytes := congrArg Lib.Bytes.ofBase64 h
  rwa [hmacBase64Url, hmacBase64Url, Lib.Bytes.ofBase64_toBase64Url,
    Lib.Bytes.ofBase64_toBase64Url] at hbytes

theorem hmacBase64Url_ne_empty {hmac : Hmac} (hdigest : ∀ key text, (hmac key text).length = 32)
    (key text : Bytes) : hmacBase64Url hmac key text ≠ "" := by
  intro hempty
  have hbytes := Lib.Bytes.ofBase64_toBase64Url (hmac key text)
  rw [hmacBase64Url] at hempty
  rw [hempty] at hbytes
  have hlength := hdigest key text
  rw [← hbytes] at hlength
  cases hlength

/-- `safeEqual`. -/
def safeEqual (a b : String) : Bool :=
  let left := Lib.Utf8.encode a
  let right := Lib.Utf8.encode b
  if left.length ≠ right.length then false else left = right

@[simp] theorem safeEqual_iff {a b : String} : safeEqual a b = true ↔ a = b := by
  constructor
  · intro h
    simp only [safeEqual] at h
    split at h
    · cases h
    · have hbytes := congrArg Lib.Utf8.decode (of_decide_eq_true h)
      rwa [Lib.Utf8.decode_encode, Lib.Utf8.decode_encode] at hbytes
  · rintro rfl
    simp [safeEqual]

/-- A tag that is presented for a text was not made without the key: if it is the
tag of this text, then the text is one that was tagged. -/
def Unforged {τ : Type*} (tag : τ → String) (tagged : τ → Prop) (text : τ) (presented : String) :
    Prop :=
  tag text = presented → tagged text

/-- A hash that tells one text from all others, for examples. -/
def exampleHmac (tagged : Bytes) : Hmac := fun _ text =>
  List.replicate 32 (if text = tagged then 1 else 0)

theorem length_exampleHmac (tagged key text : Bytes) : (exampleHmac tagged key text).length = 32 :=
  List.length_replicate

theorem exampleHmac_inj {tagged text : Bytes} (key : Bytes)
    (h : exampleHmac tagged key text = exampleHmac tagged key tagged) : text = tagged := by
  by_contra hne
  have hbytes := List.replicate_right_injective (n := 32) (by decide) h
  rw [if_neg hne, if_pos rfl] at hbytes
  cases hbytes

end Vynor.Adapters
