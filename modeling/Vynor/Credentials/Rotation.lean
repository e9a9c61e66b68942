import Vynor.Credentials.Envelope

/-!
# Key rotation

A history of configurations, each of which keeps the keys of the earlier ones
under their IDs in `ENCRYPTION_PREVIOUS_KEYS`.  What was sealed under one of
them is opened under every later one, for the account it was sealed for and for
no other (`opened_of_rotated`).

The texts of a list of keys are read back (`parsePreviousKeys_format`), so there
are such histories of any length.
-/

namespace Vynor.Credentials

open Lib (Bytes Json)
open Lib.OrderedMap (get? get?_set get?_of_mem set ofPairs set_of_not_mem)

/-! ## Lists of keys -/

/-- An ID that can stand in a list of keys. -/
def IsKeyId (id : String) : Prop := id ≠ "" ∧ ∀ c ∈ id.toList, IsPlain c

instance (id : String) : Decidable (IsKeyId id) :=
  @instDecidableAnd _ _ _ (List.decidableBAll IsPlain id.toList)

/-- An entry, with the space around it removed. -/
def IsEntry (entry : List Char) (id : String) (text : List Char) : Prop :=
  trimChars entry = id.toList ++ ':' :: text

/-- The IDs of some entries. -/
def idsOf (entries : List (List Char)) : List String :=
  entries.filterMap fun entry =>
    let trimmed := trimChars entry
    if trimmed = [] then none else some (String.ofList (splitEntry trimmed).1)

/-- The entry of an ID is split at its colon. -/
theorem splitEntry_of_isKeyId {id : String} (hid : IsKeyId id) (text : List Char) :
    splitEntry (id.toList ++ ':' :: text) = (id.toList, ':' :: text) := by
  have hcolon : ∀ c ∈ id.toList, decide (c ≠ ':') = true :=
    fun c hc => decide_eq_true (hid.2 c hc).2.2
  rw [splitEntry, List.takeWhile_append_of_pos hcolon, List.dropWhile_append_of_pos hcolon]
  simp

theorem parseEntries_cons {entry : List Char} {entries : List (List Char)}
    {keys : List (String × Key)} (h : parseEntries (entry :: entries) = .ok keys) :
    (trimChars entry = [] ∧ parseEntries entries = .ok keys) ∨
      ∃ id d text key keys', splitEntry (trimChars entry) = (id, d :: text) ∧
        trimChars entry ≠ [] ∧ parseEncryptionKey text = .ok key ∧
        parseEntries entries = .ok keys' ∧ keys = (String.ofList id, key) :: keys' := by
  rw [parseEntries] at h
  split at h
  · next hblank => exact Or.inl ⟨hblank, h⟩
  · next htrim =>
      split at h
      · next i d c text hsplit =>
          split at h
          · next key hkey =>
              cases hrest : parseEntries entries with
              | error e =>
                  rw [hrest] at h
                  cases h
              | ok keys' =>
                  rw [hrest] at h
                  cases h
                  exact Or.inr ⟨i :: d, c, text, key, keys', hsplit, htrim, hkey, rfl, rfl⟩
          · cases h
      · cases h

/-- The keys that are read have the IDs of the entries. -/
theorem map_fst_of_parseEntries {entries : List (List Char)} :
    ∀ {keys : List (String × Key)}, parseEntries entries = .ok keys →
      keys.map Prod.fst = idsOf entries := by
  induction entries with
  | nil =>
      intro keys h
      cases h
      rfl
  | cons entry entries ih =>
      intro keys h
      rcases parseEntries_cons h with ⟨hblank, hrest⟩ |
        ⟨id, d, text, key, keys', hsplit, htrim, _, hrest, rfl⟩
      · rw [ih hrest, idsOf, idsOf, List.filterMap_cons]
        simp [hblank]
      · rw [List.map_cons, ih hrest, idsOf, idsOf, List.filterMap_cons]
        simp [hsplit, htrim]

/-- An entry of an ID is among the keys that are read. -/
theorem mem_of_parseEntries {entries : List (List Char)} {entry : List Char} {id : String}
    {text : List Char} {key : Key} (hid : IsKeyId id) (hentry : IsEntry entry id text)
    (hkey : parseEncryptionKey text = .ok key) (hmem : entry ∈ entries) :
    ∀ {keys : List (String × Key)}, parseEntries entries = .ok keys → (id, key) ∈ keys := by
  induction entries with
  | nil => cases hmem
  | cons first entries ih =>
      intro keys h
      rcases List.mem_cons.mp hmem with rfl | hrest'
      · rcases parseEntries_cons h with ⟨hblank, _⟩ |
          ⟨i, d, text', key', keys', hsplit, _, hkey', _, rfl⟩
        · rw [hentry] at hblank
          simp at hblank
        · rw [hentry, splitEntry_of_isKeyId hid] at hsplit
          cases hsplit
          rw [hkey] at hkey'
          cases hkey'
          rw [String.ofList_toList]
          exact List.mem_cons_self
      · rcases parseEntries_cons h with ⟨_, hrest⟩ | ⟨_, _, _, _, keys', _, _, _, hrest, rfl⟩
        · exact ih hrest' hrest
        · exact List.mem_cons_of_mem _ (ih hrest' hrest)

/-- Pairs with distinct keys are a map. -/
theorem ofPairs_of_nodup {pairs : List (String × Key)} (h : (pairs.map Prod.fst).Nodup) :
    ofPairs pairs = pairs := by
  have hfold : ∀ (rest done : List (String × Key)),
      ((done ++ rest).map Prod.fst).Nodup →
      rest.foldl (fun m p => set m p.1 p.2) done = done ++ rest := by
    intro rest
    induction rest with
    | nil =>
        intro done _
        rw [List.append_nil]
        rfl
    | cons p rest ih =>
        intro done hdone
        have hnew : p.1 ∉ done.map Prod.fst := by
          rw [List.map_append, List.map_cons] at hdone
          intro hmem
          exact (List.nodup_append.mp hdone).2.2 _ hmem _ List.mem_cons_self rfl
        rw [List.foldl_cons, set_of_not_mem hnew, ih _ (by simpa using hdone)]
        simp
  exact hfold pairs [] h

/-! ## Writing a list of keys -/

/-- An entry with its key in base64. -/
def formatEntry (entry : String × Key) : List Char :=
  entry.1.toList ++ ':' :: Bytes.base64Chars entry.2.bytes

/-- A list of keys as `ENCRYPTION_PREVIOUS_KEYS` has it. -/
def formatKeys (keys : List (String × Key)) : String :=
  String.ofList ([','].intercalate (keys.map formatEntry))

/-- No entry has a comma or a space in it. -/
theorem mem_formatEntry {entry : String × Key} (hid : IsKeyId entry.1) {c : Char}
    (hc : c ∈ formatEntry entry) : isSpace c = false ∧ c ≠ ',' := by
  rcases List.mem_append.mp hc with hid' | hrest
  · exact ⟨(hid.2 c hid').1, (hid.2 c hid').2.1⟩
  · rcases List.mem_cons.mp hrest with rfl | hkey
    · decide
    · exact ⟨(isPlain_of_mem_base64Chars hkey).1, (isPlain_of_mem_base64Chars hkey).2.1⟩

theorem isEntry_formatEntry {entry : String × Key} (hid : IsKeyId entry.1) :
    IsEntry (formatEntry entry) entry.1 (Bytes.base64Chars entry.2.bytes) :=
  trimChars_eq_self fun _ hc => (mem_formatEntry hid hc).1

theorem parseEntries_format {keys : List (String × Key)} (hids : ∀ e ∈ keys, IsKeyId e.1) :
    parseEntries (keys.map formatEntry) = .ok keys := by
  induction keys with
  | nil => rfl
  | cons entry keys ih =>
      obtain ⟨hid, hids⟩ := List.forall_mem_cons.mp hids
      have htrim := isEntry_formatEntry hid
      rw [List.map_cons, parseEntries, htrim, splitEntry_of_isKeyId hid, ih hids]
      cases hlist : entry.1.toList with
      | nil => exact absurd (String.toList_eq_nil_iff.mp hlist) hid.1
      | cons c cs =>
          simp only [List.cons_append, reduceCtorEq, if_false, parseEncryptionKey_base64Chars]
          rw [← hlist, String.ofList_toList]
          rfl

theorem idsOf_format {keys : List (String × Key)} (hids : ∀ e ∈ keys, IsKeyId e.1) :
    idsOf (keys.map formatEntry) = keys.map Prod.fst :=
  (map_fst_of_parseEntries (parseEntries_format hids)).symm

theorem entriesOf_format {keys : List (String × Key)} (hids : ∀ e ∈ keys, IsKeyId e.1) :
    entriesOf (some (formatKeys keys)) = keys.map formatEntry := by
  cases keys with
  | nil => rfl
  | cons entry keys =>
      have hne : formatKeys (entry :: keys) ≠ "" := by
        intro hempty
        have hlist := congrArg String.toList hempty
        rw [formatKeys, String.toList_ofList, List.map_cons] at hlist
        cases hkeys : keys.map formatEntry <;> simp [hkeys, formatEntry] at hlist
      have htruthy : truthy (some (formatKeys (entry :: keys))) = some (formatKeys (entry :: keys)) :=
        truthy_eq_some.mpr ⟨rfl, hne⟩
      rw [entriesOf, htruthy]
      dsimp only
      rw [formatKeys, String.toList_ofList, List.splitOn_intercalate]
      · intro l hl hcomma
        obtain ⟨e, he, rfl⟩ := List.mem_map.mp hl
        exact (mem_formatEntry (hids e he) hcomma).2 rfl
      · exact List.cons_ne_nil _ _

/-- A list of keys is read back. -/
theorem parsePreviousKeys_format {keys : List (String × Key)} (hids : ∀ e ∈ keys, IsKeyId e.1)
    (hnodup : (keys.map Prod.fst).Nodup) :
    parsePreviousKeys (some (formatKeys keys)) = .ok keys := by
  rw [parsePreviousKeys, entriesOf_format hids, parseEntries_format hids, Except.map,
    ofPairs_of_nodup hnodup]

/-! ## Configurations -/

/-- A configuration that `fromEnv` builds a cipher of, with distinct IDs. -/
structure Configuration where
  env : CredentialCipherEnv
  cipher : CredentialCipher
  built : fromEnv env = .ok (some cipher)
  keyId : IsKeyId cipher.activeKeyId
  distinct : (cipher.activeKeyId :: idsOf (entriesOf env.ENCRYPTION_PREVIOUS_KEYS)).Nodup

/-- The key that a configuration encrypts with. -/
def Configuration.HasActiveKey (c : Configuration) (key : Key) : Prop :=
  ∃ raw, truthy c.env.ENCRYPTION_MASTER_KEY = some raw ∧ parseEncryptionKey raw.toList = .ok key

/-- A configuration has a key under its ID in its list of previous keys. -/
def Configuration.Keeps (c : Configuration) (id : String) (key : Key) : Prop :=
  ∃ entry ∈ entriesOf c.env.ENCRYPTION_PREVIOUS_KEYS, ∃ text,
    IsEntry entry id text ∧ parseEncryptionKey text = .ok key

/-- A later configuration keeps the key of an earlier one. -/
def Rotated (earlier later : Configuration) : Prop :=
  ∀ key, earlier.HasActiveKey key → later.Keeps earlier.cipher.activeKeyId key

/-- The environment of an active key and previous ones. -/
def formatEnv (id : String) (key : Key) (previous : List (String × Key)) : CredentialCipherEnv where
  ENCRYPTION_MASTER_KEY := some (Bytes.toBase64 key.bytes)
  ENCRYPTION_KEY_ID := some id
  ENCRYPTION_PREVIOUS_KEYS := some (formatKeys previous)

theorem truthy_toBase64 (key : Key) :
    truthy (some (Bytes.toBase64 key.bytes)) = some (Bytes.toBase64 key.bytes) := by
  refine truthy_eq_some.mpr ⟨rfl, Bytes.toBase64_ne_empty fun hnil => ?_⟩
  have hlength := key.length_eq
  rw [hnil] at hlength
  cases hlength

theorem parseEncryptionKey_toBase64 (key : Key) :
    parseEncryptionKey (Bytes.toBase64 key.bytes).toList = .ok key := by
  rw [Bytes.toBase64, String.toList_ofList]
  exact parseEncryptionKey_base64Chars key

theorem fromEnv_formatEnv {id : String} (key : Key) {previous : List (String × Key)}
    (hid : IsKeyId id) (hids : ∀ e ∈ previous, IsKeyId e.1)
    (hnodup : (previous.map Prod.fst).Nodup) :
    fromEnv (formatEnv id key previous) = .ok (some (.new id key previous)) := by
  have htruthy : truthy (some id) = some id := truthy_eq_some.mpr ⟨rfl, hid.1⟩
  simp only [fromEnv, formatEnv, truthy_toBase64, parseEncryptionKey_toBase64,
    parsePreviousKeys_format hids hnodup, htruthy, Option.getD_some]

/-- The configuration of an active key and previous ones. -/
def Configuration.of (id : String) (key : Key) (previous : List (String × Key))
    (hids : ∀ e ∈ (id, key) :: previous, IsKeyId e.1) (hnodup : (id :: previous.map Prod.fst).Nodup) :
    Configuration where
  env := formatEnv id key previous
  cipher := .new id key previous
  built := fromEnv_formatEnv key (List.forall_mem_cons.mp hids).1 (List.forall_mem_cons.mp hids).2
    (List.nodup_cons.mp hnodup).2
  keyId := (List.forall_mem_cons.mp hids).1
  distinct := by
    have hprevious := (List.forall_mem_cons.mp hids).2
    rw [formatEnv, entriesOf_format hprevious, idsOf_format hprevious]
    exact hnodup

theorem Configuration.built_cases (c : Configuration) :
    ∃ key previousKeys, c.HasActiveKey key ∧
      parsePreviousKeys c.env.ENCRYPTION_PREVIOUS_KEYS = .ok previousKeys ∧
      c.cipher.keys = set previousKeys c.cipher.activeKeyId key := by
  have hbuilt := c.built
  unfold fromEnv at hbuilt
  split at hbuilt
  · cases hbuilt
  · next raw hraw =>
      split at hbuilt
      · next key previousKeys hkey hprevious =>
          have hcipher := Option.some.inj (Except.ok.inj hbuilt)
          refine ⟨key, previousKeys, ⟨raw, hraw, hkey⟩, hprevious, ?_⟩
          rw [← hcipher]
          rfl
      · cases hbuilt
      · cases hbuilt

theorem Configuration.HasActiveKey.unique {c : Configuration} {key key' : Key}
    (h : c.HasActiveKey key) (h' : c.HasActiveKey key') : key = key' := by
  obtain ⟨raw, hraw, hkey⟩ := h
  obtain ⟨raw', hraw', hkey'⟩ := h'
  rw [hraw] at hraw'
  cases hraw'
  rw [hkey] at hkey'
  exact Except.ok.inj hkey'

/-- The active key is the key of the active ID. -/
theorem Configuration.requireKey_active {c : Configuration} {key : Key}
    (h : c.HasActiveKey key) : c.cipher.requireKey c.cipher.activeKeyId = .ok key := by
  obtain ⟨key', previousKeys, hactive, _, hkeys⟩ := c.built_cases
  rw [CredentialCipher.requireKey, hkeys, get?_set, if_pos rfl, hactive.unique h]

/-- A key that is kept is the key of its ID. -/
theorem Configuration.requireKey_kept {c : Configuration} {id : String} {key : Key}
    (hid : IsKeyId id) (h : c.Keeps id key) : c.cipher.requireKey id = .ok key := by
  obtain ⟨entry, hmem, text, hentry, hkey⟩ := h
  obtain ⟨key', previousKeys, _, hprevious, hkeys⟩ := c.built_cases
  rw [parsePreviousKeys] at hprevious
  cases hparsed : parseEntries (entriesOf c.env.ENCRYPTION_PREVIOUS_KEYS) with
  | error e =>
      rw [hparsed] at hprevious
      cases hprevious
  | ok keys =>
      rw [hparsed] at hprevious
      cases hprevious
      have hids := map_fst_of_parseEntries hparsed
      obtain ⟨hactive, hnodup⟩ := List.nodup_cons.mp c.distinct
      rw [← hids] at hactive hnodup
      have hpair := mem_of_parseEntries hid hentry hkey hmem hparsed
      have hne : id ≠ c.cipher.activeKeyId := by
        rintro rfl
        exact hactive (List.mem_map_of_mem hpair)
      rw [CredentialCipher.requireKey, hkeys, get?_set, if_neg hne, ofPairs_of_nodup hnodup,
        get?_of_mem hnodup hpair]

/-- A configuration that lists the key of another one keeps it. -/
theorem rotated_of {earlier : Configuration} {id : String} {key key' : Key}
    {previous : List (String × Key)} {hids : ∀ e ∈ (id, key) :: previous, IsKeyId e.1}
    {hnodup : (id :: previous.map Prod.fst).Nodup} (hactive : earlier.HasActiveKey key')
    (hmem : (earlier.cipher.activeKeyId, key') ∈ previous) :
    Rotated earlier (.of id key previous hids hnodup) := by
  intro key'' hactive'
  rw [hactive'.unique hactive]
  have hprevious := (List.forall_mem_cons.mp hids).2
  refine ⟨formatEntry (earlier.cipher.activeKeyId, key'), ?_, _,
    isEntry_formatEntry (hprevious _ hmem), parseEncryptionKey_base64Chars key'⟩
  change _ ∈ entriesOf (some (formatKeys previous))
  rw [entriesOf_format hprevious]
  exact List.mem_map_of_mem hmem

/-! ## Sealed secrets -/

variable {dates : IsoDates} {aead : Aead}

/-- The parts of an encrypted value are members of an envelope. -/
structure Carries (envelope : Json) (value : EncryptedValue) : Prop where
  ciphertext : envelope.property? "encryptedPayload" = some (.string value.ciphertext)
  keyId : envelope.property? "keyId" = some (.string value.keyId)
  iv : envelope.property? "iv" = some (.string value.iv)
  tag : envelope.property? "tag" = some (.string value.tag)

theorem carries_envelopeOf (params : SealParams) (now : Date) (value : EncryptedValue) :
    Carries (envelopeOf dates params now value) value := by
  refine ⟨?_, ?_, ?_, ?_⟩ <;> simp [envelopeOf, Json.property?, Json.Members.get?]

/-- Another account ID changes no other member. -/
theorem property?_withAccountId (envelope accountId : Json) {name : String}
    (h : name ≠ "accountId") :
    (withAccountId envelope accountId).property? name = envelope.property? name := by
  cases envelope with
  | object members =>
      have hget := get?_set members "accountId" name accountId
      rw [if_neg h] at hget
      exact hget
  | _ => rfl

theorem Carries.withAccountId {envelope : Json} {value : EncryptedValue}
    (h : Carries envelope value) (accountId : Json) :
    Carries (withAccountId envelope accountId) value where
  ciphertext := (property?_withAccountId _ _ (by decide)).trans h.ciphertext
  keyId := (property?_withAccountId _ _ (by decide)).trans h.keyId
  iv := (property?_withAccountId _ _ (by decide)).trans h.iv
  tag := (property?_withAccountId _ _ (by decide)).trans h.tag

theorem nonEmpty?_eq_some {value : Option Json} {text : String} (h : nonEmpty? value = some text) :
    value = some (.string text) := by
  unfold nonEmpty? at h
  split at h
  · split at h
    · cases h
    · cases h
      rfl
  · cases h

/-- What is parsed of an envelope is the encrypted value it carries. -/
theorem encrypted_of_safeParse {envelope : Json} {value : EncryptedValue}
    {parsed : ProviderCredentialEnvelope} (hcarries : Carries envelope value)
    (h : safeParse dates envelope = some parsed) : parsed.encrypted = value := by
  unfold safeParse at h
  dsimp only at h
  split at h
  · next accountId ciphertext keyId iv tag _ hciphertext hkeyId hiv htag =>
      split at h
      · cases h
        have hciphertext := hcarries.ciphertext.symm.trans (nonEmpty?_eq_some hciphertext)
        have hkeyId := hcarries.keyId.symm.trans (nonEmpty?_eq_some hkeyId)
        have hiv := hcarries.iv.symm.trans (nonEmpty?_eq_some hiv)
        have htag := hcarries.tag.symm.trans (nonEmpty?_eq_some htag)
        cases hciphertext
        cases hkeyId
        cases hiv
        cases htag
        rfl
      · cases h
  · cases h

/-- The schema takes an envelope that has an account ID and texts. -/
theorem safeParse_envelopeOf {params : SealParams} {now : Date} {value : EncryptedValue}
    (haccount : params.providerAccountId ≠ "")
    (hcreated : hasFourDigitYear (params.createdAt.getD now) = true)
    (hrotated : ∀ moment, params.rotatedAt = some moment → hasFourDigitYear moment = true)
    (hciphertext : value.ciphertext ≠ "") (hkeyId : value.keyId ≠ "") (hiv : value.iv ≠ "")
    (htag : value.tag ≠ "") :
    safeParse dates (envelopeOf dates params now value) =
      some { accountId := params.providerAccountId, encrypted := value } := by
  have hprovider : envelopeProvider params.provider ∈ PROVIDER_TYPES := by
    cases params.provider <;> decide
  have hauthType : envelopeAuthType params.provider ∈ AUTH_TYPES := by
    cases params.provider <;> decide
  have hcreatedAt : dates.isDatetime (dates.toISOString (params.createdAt.getD now)) = true :=
    (dates.isDatetime_toISOString _).trans hcreated
  cases hrotatedAt : params.rotatedAt with
  | none =>
      simp [safeParse, envelopeOf, hrotatedAt, Json.property?, Json.Members.get?, nonEmpty?, isEnum,
        isOptional, isDatetime, haccount, hciphertext, hkeyId, hiv, htag, hprovider, hauthType,
        hcreatedAt]
  | some moment =>
      have hmoment : dates.isDatetime (dates.toISOString moment) = true :=
        (dates.isDatetime_toISOString _).trans (hrotated moment hrotatedAt)
      simp [safeParse, envelopeOf, hrotatedAt, Json.property?, Json.Members.get?, nonEmpty?, isEnum,
        isOptional, isDatetime, haccount, hciphertext, hkeyId, hiv, htag, hprovider, hauthType,
        hcreatedAt, hmoment]

theorem aadFor_inj {accountId accountId' : String} (h : aadFor accountId = aadFor accountId') :
    accountId = accountId' := by
  exact (String.append_right_inj _).mp h

/-- What a text is encrypted to. -/
def encrypted (aead : Aead) (keyId : String) (key : Key) (iv : Iv) (plaintext aad : String) :
    EncryptedValue :=
  let (ciphertext, tag) := aead.encipher key.bytes iv.bytes (utf8 aad) (utf8 plaintext)
  { keyId
    iv := Bytes.toBase64 iv.bytes
    tag := Bytes.toBase64 tag
    ciphertext := Bytes.toBase64 ciphertext }

/-- Under the key of its ID an encrypted text is decrypted. -/
theorem decrypt_encrypted {cipher : CredentialCipher} {keyId : String} {key : Key}
    (h : cipher.requireKey keyId = .ok key) (iv : Iv) (plaintext aad : String) :
    cipher.decrypt aead (encrypted aead keyId key iv plaintext aad) aad = .ok plaintext := by
  simp only [CredentialCipher.decrypt, encrypted, h, Bytes.ofBase64_toBase64,
    aead.decipher_encipher, aead.toText_utf8]

/-- Under other additional data it is not. -/
theorem decrypt_other {cipher : CredentialCipher} {keyId : String} {key : Key}
    (h : cipher.requireKey keyId = .ok key) (iv : Iv) {plaintext aad aad' : String}
    (haad : aad' ≠ aad) :
    cipher.decrypt aead (encrypted aead keyId key iv plaintext aad) aad' = .error notDecrypted := by
  have hbytes : utf8 aad' ≠ utf8 aad := fun heq => haad (utf8_inj heq)
  simp only [CredentialCipher.decrypt, encrypted, h, Bytes.ofBase64_toBase64,
    aead.decipher_other _ _ _ _ _ hbytes]

/-- A call that threw. -/
def Rejected {α : Type} (result : Except CredentialError α) : Prop := ∃ e, result = .error e

/-- An envelope of an encrypted value is opened for no other account, whatever
its account ID was replaced by. -/
theorem rejected_other {cipher : CredentialCipher} {keyId : String} {key : Key} {envelope : Json}
    {iv : Iv} {plaintext accountId other : String} (h : cipher.requireKey keyId = .ok key)
    (hcarries : Carries envelope (encrypted aead keyId key iv plaintext (aadFor accountId)))
    (hother : other ≠ accountId) : Rejected (openChannelSecrets dates aead cipher envelope other) := by
  unfold openChannelSecrets
  split
  · exact ⟨_, rfl⟩
  · next parsed hparsed =>
      split
      · exact ⟨_, rfl⟩
      · have haad : aadFor other ≠ aadFor accountId := fun heq => hother (aadFor_inj heq)
        rw [CredentialCipher.decryptJson, encrypted_of_safeParse hcarries hparsed,
          decrypt_other h iv haad]
        exact ⟨_, rfl⟩

/-- What is sealed under one configuration is opened under another one, for its
own account and for no other. -/
def Opened (dates : IsoDates) (aead : Aead) (earlier current : Configuration) (params : SealParams)
    (now : Date) (iv : Iv) : Prop :=
  ∃ envelope, sealChannelSecrets dates aead earlier.cipher params now iv = .ok envelope ∧
    openChannelSecrets dates aead current.cipher envelope params.providerAccountId =
      .ok params.secrets ∧
    ∀ other, other ≠ params.providerAccountId →
      Rejected (openChannelSecrets dates aead current.cipher envelope other) ∧
      ∀ replacement, Rejected
        (openChannelSecrets dates aead current.cipher (withAccountId envelope replacement) other)

/-- Secrets that were sealed under a configuration are opened under every later
one, for their own account and for no other. -/
theorem opened_of_rotated {history : List Configuration} {current earlier : Configuration}
    (hrotated : (history ++ [current]).Pairwise Rotated) (hearlier : earlier ∈ history ++ [current])
    (params : SealParams) (now : Date) (iv : Iv) (haccount : params.providerAccountId ≠ "")
    (hsecrets : params.secrets.isSound = true)
    (hcreatedAt : hasFourDigitYear (params.createdAt.getD now) = true)
    (hrotatedAt : ∀ moment, params.rotatedAt = some moment → hasFourDigitYear moment = true) :
    Opened dates aead earlier current params now iv := by
  obtain ⟨key, _, hactive, _, _⟩ := earlier.built_cases
  -- the current configuration has the key under the ID of the earlier one
  have hcurrent : current.cipher.requireKey earlier.cipher.activeKeyId = .ok key := by
    rcases List.mem_append.mp hearlier with hold | hlast
    · have hpair := (List.pairwise_append.mp hrotated).2.2 earlier hold current
        (List.mem_singleton_self current)
      exact current.requireKey_kept earlier.keyId (hpair key hactive)
    · rw [List.mem_singleton.mp hlast] at hactive ⊢
      exact Configuration.requireKey_active hactive
  have hseal : sealChannelSecrets dates aead earlier.cipher params now iv =
      .ok (envelopeOf dates params now (encrypted aead earlier.cipher.activeKeyId key iv
        (Json.stringify params.secrets) (aadFor params.providerAccountId))) := by
    rw [sealChannelSecrets, CredentialCipher.encryptJson, CredentialCipher.encrypt,
      Configuration.requireKey_active hactive]
    rfl
  refine ⟨_, hseal, ?_, fun other hother =>
    ⟨rejected_other hcurrent (carries_envelopeOf params now _) hother, fun replacement =>
      rejected_other hcurrent ((carries_envelopeOf params now _).withAccountId replacement) hother⟩⟩
  have htext : Json.stringify params.secrets ≠ "" := by
    intro hempty
    have hparse := Json.parse_stringify hsecrets
    rw [hempty] at hparse
    cases hparse
  have hiv : iv.bytes ≠ [] := by
    intro hnil
    have hlength := iv.length_eq
    rw [hnil] at hlength
    cases hlength
  rw [openChannelSecrets, safeParse_envelopeOf haccount hcreatedAt hrotatedAt
    (Bytes.toBase64_ne_empty (aead.ciphertext_ne_nil _ _ _ _ (utf8_ne_nil htext)))
    earlier.keyId.1 (Bytes.toBase64_ne_empty hiv)
    (Bytes.toBase64_ne_empty (aead.tag_ne_nil _ _ _ _))]
  simp only [ne_eq, not_true_eq_false, if_false]
  rw [CredentialCipher.decryptJson, decrypt_encrypted hcurrent]
  simp only [Json.parse_stringify hsecrets]

/-! ## A rotation -/

/-- An ideal cipher: the tag says everything that the plaintext is bound to. -/
def exampleAead : Aead where
  encipher key iv aad plaintext := (plaintext, 0 :: key ++ iv ++ aad)
  decipher key iv aad ciphertext tag :=
    if tag = 0 :: key ++ iv ++ aad then some ciphertext else none
  replaceInvalid _ := "�"
  decipher_encipher _ _ _ _ := if_pos rfl
  decipher_other _ _ _ _ _ haad :=
    if_neg fun heq => haad (List.append_cancel_left heq).symm
  ciphertext_ne_nil _ _ _ _ h := h
  tag_ne_nil _ _ _ _ := List.cons_ne_nil _ _

/-- The texts of the epoch and of the first moment after the year 9999. -/
def exampleDates : IsoDates where
  toISOString moment :=
    if hasFourDigitYear moment then "1970-01-01T00:00:00.000Z" else "+010000-01-01T00:00:00.000Z"
  isDatetime text := text = "1970-01-01T00:00:00.000Z"
  isDatetime_toISOString moment := by
    cases hasFourDigitYear moment <;> decide

def exampleKey (byte : UInt8) : Key := ⟨List.replicate 32 byte, List.length_replicate⟩

def exampleIv : Iv := ⟨List.replicate 12 7, List.length_replicate⟩

theorem isKeyId_examples : IsKeyId "v1" ∧ IsKeyId "2026-07" := by
  decide

def exampleFirst : Configuration :=
  .of "v1" (exampleKey 1) [] (List.forall_mem_singleton.mpr isKeyId_examples.1) (by decide)

/-- The key of the first configuration is kept. -/
def exampleSecond : Configuration :=
  .of "2026-07" (exampleKey 2) [("v1", exampleKey 1)]
    (List.forall_mem_cons.mpr
      ⟨isKeyId_examples.2, List.forall_mem_singleton.mpr isKeyId_examples.1⟩)
    (by decide)

def exampleParams : SealParams where
  provider := .telegramBot
  providerAccountId := "account"
  secrets := .object [("credentials", .object [("botToken", .string "7:token")])]

theorem hasActiveKey_exampleFirst : exampleFirst.HasActiveKey (exampleKey 1) :=
  ⟨_, truthy_toBase64 _, parseEncryptionKey_toBase64 _⟩

theorem rotated_exampleSecond : ([exampleFirst] ++ [exampleSecond]).Pairwise Rotated :=
  List.pairwise_pair.mpr (rotated_of hasActiveKey_exampleFirst (List.mem_singleton_self _))

theorem opened_exampleParams :
    Opened exampleDates exampleAead exampleFirst exampleSecond exampleParams 0 exampleIv :=
  opened_of_rotated rotated_exampleSecond List.mem_cons_self exampleParams 0 exampleIv (by decide)
    (by decide) (by decide) (fun _ h => by cases h)

/-- An envelope is not opened where its account has no ID, and not where it was
made in a year with five digits. -/
theorem not_opened :
    (¬ ∀ (params : SealParams) (now : Date), params.secrets.isSound = true →
      hasFourDigitYear (params.createdAt.getD now) = true → params.rotatedAt = none →
        Opened exampleDates exampleAead exampleFirst exampleFirst params now exampleIv) ∧
    ¬ ∀ (params : SealParams) (now : Date), params.secrets.isSound = true →
      params.providerAccountId ≠ "" → params.rotatedAt = none →
        Opened exampleDates exampleAead exampleFirst exampleFirst params now exampleIv := by
  have hopens : ∀ params now,
      Opened exampleDates exampleAead exampleFirst exampleFirst params now exampleIv →
      ((sealChannelSecrets exampleDates exampleAead exampleFirst.cipher params now exampleIv).bind
        fun envelope => openChannelSecrets exampleDates exampleAead exampleFirst.cipher envelope
          params.providerAccountId).isOk = true := by
    rintro params now ⟨envelope, hseal, hopen, _⟩
    rw [hseal, Except.bind, hopen]
    rfl
  constructor
  · intro h
    have hopen := hopens _ _ (h { exampleParams with providerAccountId := "" } 0 (by decide)
      (by decide) rfl)
    exact absurd hopen (by decide)
  · intro h
    have hopen := hopens _ _ (h exampleParams 253402300800000 (by decide) (by decide) rfl)
    exact absurd hopen (by decide)

end Vynor.Credentials
