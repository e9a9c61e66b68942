import Vynor.Contracts.Surrogates
import Vynor.Lib.Number
import Vynor.Lib.Objects
import Vynor.Schema

/-!
# Connection inputs

The credentials an administrator enters for a provider, and which of their
fields are secrets.  A schema accepts a value in a heap or refuses it.  Where the
credentials of a provider are accepted, every secret field is a text that is not
empty, and is reached through records (`exists_secretAt`).
-/

namespace Vynor.Connection

open Lib (Heap Units Value unit)

/-- A value of the runtime that is no object.  `ν` is the type of its numbers. -/
inductive Primitive (ν : Type) where
  | undefined
  | null
  | bool (value : Bool)
  | number (value : ν)
  | string (value : Units)
deriving DecidableEq

/-- What `Array.isArray` tells of an object. -/
inductive Kind where
  | record
  | array
deriving DecidableEq, Repr

/-- What the schemas use that is no code of the repository. -/
structure Runtime (ν : Type) where
  toLowerCase : Units → Units
  /-- `z.string().email()`. -/
  isEmail : Units → Bool
  /-- `z.string().url()`. -/
  isUrl : Units → Bool
  /-- `Number(value)`. -/
  toNumber : Heap (Primitive ν) Kind → Value (Primitive ν) → Lib.Number

variable {ν : Type}

/-- Whether a value is accepted. -/
abbrev Schema (ν : Type) := Heap (Primitive ν) Kind → Value (Primitive ν) → Bool

/-! ## Classes of code units -/

def isDigitUnit (u : UInt16) : Bool := unit '0' ≤ u && u ≤ unit '9'

def isLowerUnit (u : UInt16) : Bool := unit 'a' ≤ u && u ≤ unit 'z'

def isUpperUnit (u : UInt16) : Bool := unit 'A' ≤ u && u ≤ unit 'Z'

/-- `[A-Za-z0-9]`. -/
def isAlnumUnit (u : UInt16) : Bool := isDigitUnit u || isLowerUnit u || isUpperUnit u

/-- `[a-f0-9]` with the flag `i`. -/
def isHexUnit (u : UInt16) : Bool :=
  isDigitUnit u || (unit 'a' ≤ u && u ≤ unit 'f') || (unit 'A' ≤ u && u ≤ unit 'F')

/-- A text of so many units of a class. -/
def isRun (isUnit : UInt16 → Bool) (min max : Nat) (text : Units) : Bool :=
  text.all isUnit && min ≤ text.length && text.length ≤ max

/-! ## Parts of schemas -/

/-- `z.string()` with a check. -/
def string (check : Units → Bool) : Schema ν
  | _, .atom (.string text) => check text
  | _, _ => false

/-- `z.string().trim()` with a check. -/
def trimmed (check : Units → Bool) : Schema ν := string fun text => check (trimUnits text)

/-- `z.boolean()`. -/
def boolean : Schema ν
  | _, .atom (.bool _) => true
  | _, _ => false

/-- `schema.optional()`. -/
def optional (schema : Schema ν) : Schema ν
  | _, .atom .undefined => true
  | heap, value => schema heap value

/-- `object[name]`. -/
def property (heap : Heap (Primitive ν) Kind) (value : Value (Primitive ν)) (name : String) :
    Value (Primitive ν) :=
  (heap.get? value (codeUnits name)).getD (.atom .undefined)

def isRecord (heap : Heap (Primitive ν) Kind) (value : Value (Primitive ν)) : Bool :=
  match heap.describe value with
  | some (.object .record) => true
  | _ => false

/-- `z.object(shape)`. -/
def object (shape : List (String × Schema ν)) : Schema ν := fun heap value =>
  isRecord heap value && shape.all fun field => field.2 heap (property heap value field.1)

/-- `requiredText`. -/
def requiredText (max : Nat) : Schema ν :=
  trimmed fun text => 1 ≤ text.length && text.length ≤ max

/-- `metaNumericId`. -/
def metaNumericId : Schema ν := trimmed (isRun isDigitUnit 5 32)

/-- `metaAppSecret`. -/
def metaAppSecret : Schema ν := trimmed (isRun isAlnumUnit 16 64)

/-- `accessToken`. -/
def accessToken : Schema ν := trimmed (isRun (fun u => !isSpaceUnit u) 20 2048)

/-- `/^https?:\/\//i`. -/
def startsWithHttp (text : Units) : Bool :=
  let lower := text.map fun u => if isUpperUnit u then u + 32 else u
  (codeUnits "http://").isPrefixOf lower || (codeUnits "https://").isPrefixOf lower

variable (rt : Runtime ν)

/-- `webUrl`. -/
def webUrl : Schema ν :=
  trimmed fun text => rt.isUrl text && text.length ≤ 2048 && startsWithHttp text

/-- `z.coerce.number().int().min(1).max(65535)`. -/
def port : Schema ν := fun heap value =>
  match rt.toNumber heap value with
  | .finite n => n.den = 1 && 1 ≤ n && n ≤ 65535
  | _ => false

/-! ## The schemas -/

def WhatsAppCloudCredentialsSchema : Schema ν :=
  object
    [("accessToken", accessToken), ("phoneNumberId", metaNumericId),
      ("businessAccountId", metaNumericId), ("appSecret", metaAppSecret)]

/-- `/^\d{5,16}:[A-Za-z0-9_-]{30,64}$/`. -/
def isBotToken (text : Units) : Bool :=
  isRun isDigitUnit 5 16 (text.takeWhile isDigitUnit) &&
    match text.dropWhile isDigitUnit with
    | [] => false
    | u :: rest =>
        u = unit ':' &&
          isRun (fun u => isAlnumUnit u || u = unit '_' || u = unit '-') 30 64 rest

def TelegramBotCredentialsSchema : Schema ν := object [("botToken", trimmed isBotToken)]

def MailServerCredentialsSchema : Schema ν :=
  object
    [("host", trimmed fun text =>
        isRun (fun u => isLowerUnit u || isDigitUnit u || u = unit '.' || u = unit '-') 1 255
          (rt.toLowerCase text)),
      ("port", port rt), ("secure", boolean), ("username", requiredText 255),
      ("password", string fun text => 1 ≤ text.length && text.length ≤ 512)]

def EmailCredentialsSchema : Schema ν :=
  object
    [("emailAddress", trimmed fun text =>
        rt.isEmail (rt.toLowerCase text) && (rt.toLowerCase text).length ≤ 255),
      ("senderName", optional (trimmed fun text => text.length ≤ 100)),
      ("imap", MailServerCredentialsSchema rt), ("smtp", MailServerCredentialsSchema rt)]

def MessengerCredentialsSchema : Schema ν :=
  object
    [("pageId", metaNumericId), ("pageAccessToken", accessToken), ("appSecret", metaAppSecret)]

def InstagramCredentialsSchema : Schema ν :=
  object [("accessToken", accessToken), ("appSecret", metaAppSecret)]

def LineCredentialsSchema : Schema ν :=
  object [("channelAccessToken", accessToken), ("channelSecret", trimmed (isRun isHexUnit 32 32))]

/-- `/^#[0-9a-f]{6}$/i`. -/
def isHexColour : Units → Bool
  | [] => false
  | u :: rest => u = unit '#' && isRun isHexUnit 6 6 rest

def WebchatSettingsSchema : Schema ν :=
  object
    [("websiteUrl", optional (webUrl rt)),
      ("welcomeMessage", optional (trimmed fun text => text.length ≤ 500)),
      ("accentColor", optional (trimmed isHexColour))]

def CustomApiCredentialsSchema : Schema ν := object [("outboundUrl", webUrl rt)]

/-- The schema of the credentials of a provider. -/
def credentialsSchema : ChannelProviderType → Schema ν
  | .whatsappCloud => WhatsAppCloudCredentialsSchema
  | .telegramBot => TelegramBotCredentialsSchema
  | .emailSmtpImap => EmailCredentialsSchema rt
  | .metaMessenger => MessengerCredentialsSchema
  | .metaInstagram => InstagramCredentialsSchema
  | .lineMessaging => LineCredentialsSchema
  | .webchatEmbed => WebchatSettingsSchema rt
  | .customWebhook => CustomApiCredentialsSchema rt

/-- `PROVIDER_SECRET_FIELDS`: the dot paths of the fields that are secrets. -/
def PROVIDER_SECRET_FIELDS : ChannelProviderType → List String
  | .whatsappCloud => ["accessToken", "appSecret"]
  | .telegramBot => ["botToken"]
  | .emailSmtpImap => ["imap.password", "smtp.password"]
  | .metaMessenger => ["pageAccessToken", "appSecret"]
  | .metaInstagram => ["accessToken", "appSecret"]
  | .lineMessaging => ["channelAccessToken", "channelSecret"]
  | .webchatEmbed => []
  | .customWebhook => []

/-! ## What is accepted -/

/-- There is a secret at a path. -/
structure SecretAt (heap : Heap (Primitive ν) Kind) (value : Value (Primitive ν))
    (path : List Units) (secret : Units) : Prop where
  text : heap.fieldAt value path = some (.atom (.string secret))
  ne_nil : secret ≠ []
  /-- The objects on the way are no arrays. -/
  records : ∀ start kind, start <+: path → start ≠ path →
    heap.fieldAt value start = some (.object kind) → kind = .record

section Accepted

variable {heap : Heap (Primitive ν) Kind} {value : Value (Primitive ν)} {name outer : String}
  {shape inner : List (String × Schema ν)} {check : Units → Bool}

theorem describe_of_isRecord (h : isRecord heap value = true) :
    heap.describe value = some (.object .record) := by
  unfold isRecord at h
  split at h
  · assumption
  · cases h

theorem describe_of_object (h : object shape heap value = true) :
    heap.describe value = some (.object .record) :=
  describe_of_isRecord (Bool.and_eq_true_iff.mp h).1

theorem property_of_object (h : object shape heap value = true) {schema : Schema ν}
    (hmem : (name, schema) ∈ shape) : schema heap (property heap value name) = true :=
  List.all_eq_true.mp (Bool.and_eq_true_iff.mp h).2 _ hmem

theorem get?_of_property {w : Value (Primitive ν)} (h : property heap value name = w)
    (hw : w ≠ .atom .undefined) : heap.get? value (codeUnits name) = some w := by
  rw [property] at h
  cases hget : heap.get? value (codeUnits name) with
  | none =>
      rw [hget] at h
      exact absurd h.symm hw
  | some u =>
      rw [hget] at h
      rw [← h]
      rfl

theorem text_of_string (h : string check heap value = true) :
    ∃ text, value = .atom (.string text) ∧ check text = true := by
  unfold string at h
  split at h
  · exact ⟨_, rfl, h⟩
  · cases h

theorem secretAt_nil {secret : Units} (hne : secret ≠ []) :
    SecretAt heap (.atom (.string secret)) [] secret where
  text := rfl
  ne_nil := hne
  records := fun _ _ hstart hproper _ => absurd (List.prefix_nil.mp hstart) hproper

/-- A secret is reached through one more record. -/
theorem secretAt_cons {w : Value (Primitive ν)} {path : List Units} {secret : Units}
    (hrecord : heap.describe value = some (.object .record))
    (hget : heap.get? value (codeUnits name) = some w) (h : SecretAt heap w path secret) :
    SecretAt heap value (codeUnits name :: path) secret where
  text := by
    rw [Heap.fieldAt_cons, hget]
    exact h.text
  ne_nil := h.ne_nil
  records := by
    intro start kind hstart hproper hfield
    cases start with
    | nil =>
        rw [Heap.fieldAt_nil, hrecord] at hfield
        injection hfield with hfield
        injection hfield with hkind
        exact hkind.symm
    | cons first start =>
        obtain ⟨rfl, hrest⟩ := List.cons_prefix_cons.mp hstart
        rw [Heap.fieldAt_cons, hget] at hfield
        exact h.records start kind hrest (fun heq => hproper (heq ▸ rfl)) hfield

/-- A secret that is a field of the credentials. -/
theorem exists_secretAt_field (h : object shape heap value = true)
    (hmem : (name, string check) ∈ shape) (hcheck : check [] = false) :
    ∃ secret, SecretAt heap value [codeUnits name] secret ∧ check secret = true := by
  obtain ⟨secret, htext, hsecret⟩ := text_of_string (property_of_object h hmem)
  have hne : secret ≠ [] := by
    rintro rfl
    rw [hcheck] at hsecret
    cases hsecret
  have hget := get?_of_property htext fun heq => by cases heq
  exact ⟨secret, secretAt_cons (describe_of_object h) hget (secretAt_nil hne), hsecret⟩

/-- A secret that is a field of an object in the credentials. -/
theorem exists_secretAt_inner (h : object shape heap value = true)
    (houter : (outer, object inner) ∈ shape) (hmem : (name, string check) ∈ inner)
    (hcheck : check [] = false) :
    ∃ secret, SecretAt heap value [codeUnits outer, codeUnits name] secret ∧
      check secret = true := by
  have hinner := property_of_object h houter
  obtain ⟨secret, hsecret, haccepted⟩ := exists_secretAt_field hinner hmem hcheck
  have hget := get?_of_property rfl fun heq => by
    have hrecord := describe_of_object hinner
    rw [heq] at hrecord
    cases hrecord
  exact ⟨secret, secretAt_cons (describe_of_object h) hget hsecret, haccepted⟩

theorem isRun_nil {isUnit : UInt16 → Bool} {min max : Nat} (h : 0 < min) :
    isRun isUnit min max [] = false := by
  rw [isRun, List.length_nil, decide_eq_false (Nat.not_le.mpr h), Bool.and_false, Bool.false_and]

/-! ### The token of a bot -/

/-- A text is what is left of it between the spaces at its ends. -/
theorem exists_trimUnits (text : Units) :
    ∃ start stop, text = start ++ trimUnits text ++ stop ∧
      (∀ u ∈ start, isSpaceUnit u = true) ∧ ∀ u ∈ stop, isSpaceUnit u = true := by
  have hspaces : ∀ units : Units, ∀ u ∈ units.takeWhile isSpaceUnit, isSpaceUnit u = true :=
    fun _ u hu => List.all_eq_true.mp List.all_takeWhile u hu
  refine ⟨text.takeWhile isSpaceUnit,
    ((text.dropWhile isSpaceUnit).reverse.takeWhile isSpaceUnit).reverse, ?_, hspaces text,
    fun u hu => hspaces _ u (List.mem_reverse.mp hu)⟩
  rw [trimUnits, List.append_assoc, ← List.reverse_append, List.takeWhile_append_dropWhile,
    List.reverse_reverse, List.takeWhile_append_dropWhile]

/-- A text with one colon. -/
def HasOneColon (text : Units) : Prop :=
  ∃ before after, text = before ++ unit ':' :: after ∧ unit ':' ∉ before ∧ unit ':' ∉ after

theorem not_mem_colon {isUnit : UInt16 → Bool} {text : Units} (h : text.all isUnit = true)
    (hcolon : isUnit (unit ':') = false) : unit ':' ∉ text := by
  intro hmem
  have hunit := List.all_eq_true.mp h _ hmem
  rw [hcolon] at hunit
  cases hunit

theorem hasOneColon_of_isBotToken {text : Units} (h : isBotToken (trimUnits text) = true) :
    HasOneColon text := by
  obtain ⟨start, stop, htext, hstart, hstop⟩ := exists_trimUnits text
  generalize trimUnits text = token at h htext
  obtain ⟨_, hrest⟩ := Bool.and_eq_true_iff.mp h
  have hsplit := List.takeWhile_append_dropWhile (p := isDigitUnit) (l := token)
  cases hdrop : token.dropWhile isDigitUnit with
  | nil =>
      rw [hdrop] at hrest
      cases hrest
  | cons u rest =>
      rw [hdrop] at hrest hsplit
      obtain ⟨hcolon, hrun⟩ := Bool.and_eq_true_iff.mp hrest
      rw [of_decide_eq_true hcolon] at hsplit
      have hspaces := not_mem_colon (List.all_eq_true.mpr hstart) (by decide)
      have hspaces' := not_mem_colon (List.all_eq_true.mpr hstop) (by decide)
      have hdigits : unit ':' ∉ token.takeWhile isDigitUnit :=
        not_mem_colon List.all_takeWhile (by decide)
      have hsecret :=
        not_mem_colon (Bool.and_eq_true_iff.mp (Bool.and_eq_true_iff.mp hrun).1).1 (by decide)
      refine ⟨start ++ token.takeWhile isDigitUnit, rest ++ stop, ?_, ?_, ?_⟩
      · calc
          text = start ++ token ++ stop := htext
          _ = start ++ (token.takeWhile isDigitUnit ++ unit ':' :: rest) ++ stop := by rw [hsplit]
          _ = _ := by simp only [List.append_assoc, List.cons_append]
      · rw [List.mem_append, not_or]
        exact ⟨hspaces, hdigits⟩
      · rw [List.mem_append, not_or]
        exact ⟨hsecret, hspaces'⟩

end Accepted

/-- The segments of a dot path. -/
def segmentsOf (path : String) : List Units := (codeUnits path).splitOn (unit '.')

/-- The paths of the secrets. -/
def secretPaths (provider : ChannelProviderType) : List (List Units) :=
  (PROVIDER_SECRET_FIELDS provider).map segmentsOf

theorem segmentsOf_field {name : String} (h : unit '.' ∉ codeUnits name) :
    segmentsOf name = [codeUnits name] :=
  List.splitOn_eq_singleton h

/-- Accepted credentials are a record. -/
theorem describe_of_credentials {rt : Runtime ν} {provider : ChannelProviderType}
    {heap : Heap (Primitive ν) Kind} {value : Value (Primitive ν)}
    (h : credentialsSchema rt provider heap value = true) :
    heap.describe value = some (.object .record) := by
  cases provider <;> exact describe_of_object h

/-- A secret with spaces at its ends, which is a field of the credentials. -/
theorem exists_secretAt_trimmed {shape : List (String × Schema ν)} {name : String}
    {check : Units → Bool} {heap : Heap (Primitive ν) Kind} {value : Value (Primitive ν)}
    (h : object shape heap value = true) (hmem : (name, trimmed check) ∈ shape)
    (hcheck : check [] = false) (hdot : unit '.' ∉ codeUnits name) :
    ∃ secret, SecretAt heap value (segmentsOf name) secret ∧ check (trimUnits secret) = true := by
  rw [segmentsOf_field hdot]
  exact exists_secretAt_field h hmem hcheck

/-- Two secrets of at least so many units. -/
theorem exists_secretAt_runs {shape : List (String × Schema ν)} {name name' : String}
    {isUnit isUnit' : UInt16 → Bool} {max max' : Nat} {heap : Heap (Primitive ν) Kind}
    {value : Value (Primitive ν)} (min min' : Nat) (h : object shape heap value = true)
    (hmem : (name, trimmed (isRun isUnit min max)) ∈ shape)
    (hmem' : (name', trimmed (isRun isUnit' min' max')) ∈ shape) (hmin : 0 < min)
    (hmin' : 0 < min') (hdot : unit '.' ∉ codeUnits name) (hdot' : unit '.' ∉ codeUnits name') :
    ∀ path ∈ [name, name'], ∃ secret, SecretAt heap value (segmentsOf path) secret := by
  refine List.forall_mem_cons.mpr ⟨?_, List.forall_mem_singleton.mpr ?_⟩
  · obtain ⟨secret, hsecret, _⟩ := exists_secretAt_trimmed h hmem (isRun_nil hmin) hdot
    exact ⟨secret, hsecret⟩
  · obtain ⟨secret, hsecret, _⟩ := exists_secretAt_trimmed h hmem' (isRun_nil hmin') hdot'
    exact ⟨secret, hsecret⟩

/-- Every secret of accepted credentials is there, and the token of a bot has one
colon. -/
theorem exists_secretAt {rt : Runtime ν} {provider : ChannelProviderType}
    {heap : Heap (Primitive ν) Kind} {value : Value (Primitive ν)}
    (h : credentialsSchema rt provider heap value = true) :
    ∀ path ∈ PROVIDER_SECRET_FIELDS provider, ∃ secret,
      SecretAt heap value (segmentsOf path) secret ∧
        (provider = .telegramBot → HasOneColon secret) := by
  have hother : ∀ {secrets : List String}, provider ≠ .telegramBot →
      (∀ path ∈ secrets, ∃ secret, SecretAt heap value (segmentsOf path) secret) →
      ∀ path ∈ secrets, ∃ secret, SecretAt heap value (segmentsOf path) secret ∧
        (provider = .telegramBot → HasOneColon secret) := by
    intro secrets hne hall path hpath
    obtain ⟨secret, hsecret⟩ := hall path hpath
    exact ⟨secret, hsecret, fun heq => absurd heq hne⟩
  cases provider with
  | whatsappCloud =>
      exact hother (by decide) (exists_secretAt_runs 20 16 h (List.mem_of_getElem? (i := 0) rfl)
        (List.mem_of_getElem? (i := 3) rfl) (by decide) (by decide) (by decide) (by decide))
  | metaMessenger =>
      exact hother (by decide) (exists_secretAt_runs 20 16 h (List.mem_of_getElem? (i := 1) rfl)
        (List.mem_of_getElem? (i := 2) rfl) (by decide) (by decide) (by decide) (by decide))
  | metaInstagram =>
      exact hother (by decide) (exists_secretAt_runs 20 16 h (List.mem_of_getElem? (i := 0) rfl)
        (List.mem_of_getElem? (i := 1) rfl) (by decide) (by decide) (by decide) (by decide))
  | lineMessaging =>
      exact hother (by decide) (exists_secretAt_runs 20 32 h (List.mem_of_getElem? (i := 0) rfl)
        (List.mem_of_getElem? (i := 1) rfl) (by decide) (by decide) (by decide) (by decide))
  | telegramBot =>
      refine List.forall_mem_singleton.mpr ?_
      obtain ⟨secret, hsecret, htoken⟩ := exists_secretAt_trimmed h
        (List.mem_of_getElem? (i := 0) rfl) rfl (by decide)
      exact ⟨secret, hsecret, fun _ => hasOneColon_of_isBotToken htoken⟩
  | emailSmtpImap =>
      have himap : segmentsOf "imap.password" = [codeUnits "imap", codeUnits "password"] := by
        decide
      have hsmtp : segmentsOf "smtp.password" = [codeUnits "smtp", codeUnits "password"] := by
        decide
      refine List.forall_mem_cons.mpr ⟨?_, List.forall_mem_singleton.mpr ?_⟩
      · obtain ⟨secret, hsecret, _⟩ := exists_secretAt_inner h
          (List.mem_of_getElem? (i := 2) rfl) (List.mem_of_getElem? (i := 4) rfl) rfl
        exact ⟨secret, himap ▸ hsecret, fun heq => by cases heq⟩
      · obtain ⟨secret, hsecret, _⟩ := exists_secretAt_inner h
          (List.mem_of_getElem? (i := 3) rfl) (List.mem_of_getElem? (i := 4) rfl) rfl
        exact ⟨secret, hsmtp ▸ hsecret, fun heq => by cases heq⟩
  | webchatEmbed => exact fun _ hpath => absurd hpath List.not_mem_nil
  | customWebhook => exact fun _ hpath => absurd hpath List.not_mem_nil

end Vynor.Connection
