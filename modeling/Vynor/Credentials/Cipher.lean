import Vynor.Contracts.Content
import Vynor.Lib.Bytes
import Vynor.Lib.JsonText
import Vynor.Lib.OrderedMap

/-!
# The credential cipher

How keys are read from the environment, and how a `CredentialCipher` encrypts
and decrypts texts and JSON values with them.

AES-256-GCM is a parameter, `Aead`, and is taken as ideal: what was sealed is
opened under the same key, initialisation vector and additional data, and under
no other additional data.
-/

namespace Vynor.Credentials

open Lib (Bytes Json OrderedMap.get? OrderedMap.set OrderedMap.ofPairs)

/-! ## Bytes of texts -/

/-- `Buffer.from(text, 'utf8')`. -/
def utf8 (text : String) : Bytes := text.toByteArray.data.toList

theorem utf8_inj {text text' : String} (h : utf8 text = utf8 text') : text = text' := by
  have harray : text.toByteArray.data = text'.toByteArray.data := Array.toList_inj.mp h
  exact String.toByteArray_inj.mp (ByteArray.ext harray)

theorem utf8_ne_nil {text : String} (h : text ≠ "") : utf8 text ≠ [] :=
  fun hnil => h (utf8_inj hnil)

/-- What the platform provides: the cipher, and what `toString` makes of bytes
that are no UTF-8. -/
structure Aead where
  /-- The ciphertext and the tag of a plaintext. -/
  encipher : (key iv aad plaintext : Bytes) → Bytes × Bytes
  /-- The plaintext, where the tag is right. -/
  decipher : (key iv aad ciphertext tag : Bytes) → Option Bytes
  replaceInvalid : Bytes → String
  decipher_encipher : ∀ key iv aad plaintext,
    decipher key iv aad (encipher key iv aad plaintext).1 (encipher key iv aad plaintext).2 =
      some plaintext
  decipher_other : ∀ key iv aad aad' plaintext, aad' ≠ aad →
    decipher key iv aad' (encipher key iv aad plaintext).1 (encipher key iv aad plaintext).2 = none
  ciphertext_ne_nil : ∀ key iv aad plaintext, plaintext ≠ [] →
    (encipher key iv aad plaintext).1 ≠ []
  tag_ne_nil : ∀ key iv aad plaintext, (encipher key iv aad plaintext).2 ≠ []

/-- `bytes.toString('utf8')`. -/
def Aead.toText (aead : Aead) (bytes : Bytes) : String :=
  (String.fromUTF8? ⟨bytes.toArray⟩).getD (aead.replaceInvalid bytes)

theorem Aead.toText_utf8 (aead : Aead) (text : String) : aead.toText (utf8 text) = text := by
  have hbytes : (⟨(utf8 text).toArray⟩ : ByteArray) = text.toByteArray := by
    rw [utf8, Array.toArray_toList]
  rw [Aead.toText, hbytes, String.fromUTF8?, dif_pos text.isValidUTF8]
  rfl

/-! ## Keys -/

def KEY_BYTES : Nat := 32

def IV_BYTES : Nat := 12

/-- What is thrown: a `CredentialCipherError`, or the error of `JSON.parse`. -/
inductive CredentialError where
  | cipher (message : String)
  | syntax_
deriving DecidableEq

def keyMalformed : CredentialError :=
  .cipher ("Encryption key must be 32 bytes, encoded as base64 or hex " ++
    "(generate one with: openssl rand -base64 32).")

def entryMalformed : CredentialError :=
  .cipher "ENCRYPTION_PREVIOUS_KEYS entries must look like kid:base64key"

def notDecrypted : CredentialError :=
  .cipher "Stored secret could not be decrypted (wrong key, tampered data, or record mismatch)."

def noKey (keyId : String) : CredentialError :=
  .cipher ("No encryption key is configured for key ID \"" ++ keyId ++
    "\". Add it to ENCRYPTION_PREVIOUS_KEYS.")

/-- A 256-bit key. -/
structure Key where
  bytes : Bytes
  length_eq : bytes.length = KEY_BYTES
deriving DecidableEq

/-- `/^[0-9a-f]{64}$/i`. -/
def isHexKey (text : List Char) : Bool :=
  text.length = 64 && text.all fun c => Lib.digitValue c < 16

/-- `parseEncryptionKey`. -/
def parseEncryptionKey (raw : List Char) : Except CredentialError Key :=
  let value := trimChars raw
  let key := if isHexKey value then Bytes.ofHexChars value else Bytes.ofBase64Chars value
  if h : key.length = KEY_BYTES then .ok ⟨key, h⟩ else .error keyMalformed

/-- The ID of an entry, up to its first colon, and the text of its key. -/
def splitEntry (trimmed : List Char) : List Char × List Char :=
  (trimmed.takeWhile fun c => c ≠ ':', trimmed.dropWhile fun c => c ≠ ':')

/-- The entries of a list of keys, from left to right. -/
def parseEntries : List (List Char) → Except CredentialError (List (String × Key))
  | [] => .ok []
  | entry :: entries =>
      let trimmed := trimChars entry
      if trimmed = [] then parseEntries entries
      else
        match splitEntry trimmed with
        | (i :: d, _ :: text) =>
            match parseEncryptionKey text with
            | .ok key =>
                (parseEntries entries).map fun keys => (String.ofList (i :: d), key) :: keys
            | .error e => .error e
        | _ => .error entryMalformed

/-- The entries of `ENCRYPTION_PREVIOUS_KEYS`. -/
def entriesOf (raw : Option String) : List (List Char) :=
  match truthy raw with
  | none => []
  | some raw => raw.toList.splitOn ','

/-- `parsePreviousKeys`. -/
def parsePreviousKeys (raw : Option String) : Except CredentialError (List (String × Key)) :=
  (parseEntries (entriesOf raw)).map OrderedMap.ofPairs

/-! ## `CredentialCipher` -/

/-- `CredentialCipherEnv`. -/
structure CredentialCipherEnv where
  ENCRYPTION_MASTER_KEY : Option String := none
  ENCRYPTION_KEY_ID : Option String := none
  ENCRYPTION_PREVIOUS_KEYS : Option String := none

/-- `CredentialCipher`.  The keys have the active one under its ID. -/
structure CredentialCipher where
  activeKeyId : String
  keys : List (String × Key)
deriving DecidableEq

/-- The constructor. -/
def CredentialCipher.new (activeKeyId : String) (activeKey : Key)
    (previousKeys : List (String × Key)) : CredentialCipher where
  activeKeyId
  keys := OrderedMap.set previousKeys activeKeyId activeKey

/-- `fromEnv`. -/
def fromEnv (env : CredentialCipherEnv) : Except CredentialError (Option CredentialCipher) :=
  match truthy env.ENCRYPTION_MASTER_KEY with
  | none => .ok none
  | some masterKey =>
      match parseEncryptionKey masterKey.toList, parsePreviousKeys env.ENCRYPTION_PREVIOUS_KEYS with
      | .ok key, .ok previousKeys =>
          .ok (some (.new ((truthy env.ENCRYPTION_KEY_ID).getD "v1") key previousKeys))
      | .ok _, .error e => .error e
      | .error e, _ => .error e

/-- `EncryptedValue`. -/
structure EncryptedValue where
  keyId : String
  iv : String
  tag : String
  ciphertext : String

/-- `randomBytes(IV_BYTES)`. -/
structure Iv where
  bytes : Bytes
  length_eq : bytes.length = IV_BYTES

namespace CredentialCipher

variable (cipher : CredentialCipher) (aead : Aead)

/-- `requireKey`. -/
def requireKey (keyId : String) : Except CredentialError Key :=
  match OrderedMap.get? cipher.keys keyId with
  | some key => .ok key
  | none => .error (noKey keyId)

/-- `encrypt`. -/
def encrypt (iv : Iv) (plaintext aad : String) : Except CredentialError EncryptedValue :=
  (cipher.requireKey cipher.activeKeyId).map fun key =>
    let (ciphertext, tag) := aead.encipher key.bytes iv.bytes (utf8 aad) (utf8 plaintext)
    { keyId := cipher.activeKeyId
      iv := Bytes.toBase64 iv.bytes
      tag := Bytes.toBase64 tag
      ciphertext := Bytes.toBase64 ciphertext }

/-- `decrypt`. -/
def decrypt (value : EncryptedValue) (aad : String) : Except CredentialError String :=
  match cipher.requireKey value.keyId with
  | .error e => .error e
  | .ok key =>
      match aead.decipher key.bytes (Bytes.ofBase64 value.iv) (utf8 aad)
          (Bytes.ofBase64 value.ciphertext) (Bytes.ofBase64 value.tag) with
      | some plaintext => .ok (aead.toText plaintext)
      | none => .error notDecrypted

/-- `encryptJson`. -/
def encryptJson (iv : Iv) (value : Json) (aad : String) : Except CredentialError EncryptedValue :=
  cipher.encrypt aead iv (Json.stringify value) aad

/-- `decryptJson`. -/
def decryptJson (value : EncryptedValue) (aad : String) : Except CredentialError Json :=
  match cipher.decrypt aead value aad with
  | .error e => .error e
  | .ok text =>
      match Json.parse text with
      | some parsed => .ok parsed
      | none => .error .syntax_

end CredentialCipher

/-! ## Texts of keys -/

/-- Text without a space in it is not changed by `trim`. -/
theorem trimChars_eq_self {text : List Char} (h : ∀ c ∈ text, isSpace c = false) :
    trimChars text = text := by
  have hdrop : ∀ cs : List Char, (∀ c ∈ cs, isSpace c = false) → cs.dropWhile isSpace = cs := by
    intro cs hcs
    cases cs with
    | nil => rfl
    | cons c cs => rw [List.dropWhile_cons, hcs c List.mem_cons_self, if_neg Bool.false_ne_true]
  rw [trimChars, hdrop text h, hdrop _ fun c hc => h c (List.mem_reverse.mp hc), List.reverse_reverse]

/-- The characters that stand for themselves in a list of keys. -/
def IsPlain (c : Char) : Prop := isSpace c = false ∧ c ≠ ',' ∧ c ≠ ':'

instance (c : Char) : Decidable (IsPlain c) := inferInstanceAs (Decidable (_ ∧ _))

theorem isPlain_of_mem_hexChars {bytes : Bytes} {c : Char} (hc : c ∈ Bytes.hexChars bytes) :
    IsPlain c := by
  obtain ⟨n, hn, rfl⟩ := Bytes.mem_hexChars hc
  have hall : ∀ n < 16, IsPlain (Nat.digitChar n) := by decide
  exact hall n hn

theorem isPlain_of_mem_base64Chars {bytes : Bytes} {c : Char} (hc : c ∈ Bytes.base64Chars bytes) :
    IsPlain c := by
  rcases Bytes.mem_base64Chars hc with rfl | ⟨n, hn, rfl⟩
  · decide
  · have hall : ∀ n < 64, IsPlain (Bytes.base64Digit n) := by decide
    exact hall n hn

/-- A key in hexadecimal is read. -/
theorem parseEncryptionKey_hexChars (key : Key) :
    parseEncryptionKey (Bytes.hexChars key.bytes) = .ok key := by
  have htrim : trimChars (Bytes.hexChars key.bytes) = Bytes.hexChars key.bytes :=
    trimChars_eq_self fun c hc => (isPlain_of_mem_hexChars hc).1
  have hhex : isHexKey (Bytes.hexChars key.bytes) = true := by
    simp only [isHexKey, Bytes.length_hexChars, key.length_eq, Bool.and_eq_true, List.all_eq_true,
      decide_eq_true_eq]
    exact ⟨rfl, fun c hc => Bytes.digitValue_of_mem_hexChars hc⟩
  simp only [parseEncryptionKey, htrim, hhex, if_true, Bytes.ofHexChars_hexChars]
  rw [dif_pos key.length_eq]

/-- A key in base64 is read. -/
theorem parseEncryptionKey_base64Chars (key : Key) :
    parseEncryptionKey (Bytes.base64Chars key.bytes) = .ok key := by
  have htrim : trimChars (Bytes.base64Chars key.bytes) = Bytes.base64Chars key.bytes :=
    trimChars_eq_self fun c hc => (isPlain_of_mem_base64Chars hc).1
  have hhex : isHexKey (Bytes.base64Chars key.bytes) = false := by
    simp [isHexKey, Bytes.length_base64Chars, key.length_eq, KEY_BYTES]
  simp only [parseEncryptionKey, htrim, hhex, Bool.false_eq_true, if_false,
    Bytes.ofBase64Chars_base64Chars]
  rw [dif_pos key.length_eq]

/-- A text of a key: its bytes in base64 or hexadecimal. -/
inductive Key.HasText (key : Key) : List Char → Prop where
  | base64 : key.HasText (Bytes.base64Chars key.bytes)
  | hex : key.HasText (Bytes.hexChars key.bytes)

theorem Key.HasText.parse {key : Key} {text : List Char} (h : key.HasText text) :
    parseEncryptionKey text = .ok key := by
  cases h with
  | base64 => exact parseEncryptionKey_base64Chars key
  | hex => exact parseEncryptionKey_hexChars key

end Vynor.Credentials
