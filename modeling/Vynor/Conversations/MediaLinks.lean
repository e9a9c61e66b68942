import Vynor.Adapters.Hmac
import Vynor.Adapters.Payload
import Vynor.Credentials.Cipher
import Vynor.Lib.IntegerText
import Vynor.Lib.Machine
import Vynor.Lib.SearchParams
import Vynor.Storage.S3Adapter

/-!
# Media links

The file of a message is streamed to whoever has its signed link.  `sign` makes
the link when a message is listed, and `verify` checks it when it is opened,
without any other credential.

The signature covers the message id and the expiry as one text with a point
between them.  An id may hold points, and the expiry is any number the request
names, printed again, so two pairs could have one text.  They do not: the expiry
of a link that was given out is printed as digits, and any other number ends in
digits after its last other character too (`signedText_inj`).

So a request is let through to the provider exactly when its signature is that of
a link that was given out for this message and its expiry is that of the link, and
it streams the file of the message when the provider then answers with one
(`media_served_by_links`).
-/

namespace Vynor.Conversations.MediaLinks

open Lib (Bytes Machine Number numberText)
open Adapters (Hmac Unforged safeEqual safeEqual_iff toNumber)
open Storage (encodeURIComponent isComponentChar)

/-! ## The service -/

/-- `MEDIA_URL_TTL_SECONDS`. -/
def MEDIA_URL_TTL_SECONDS : Nat := 60 * 60

/-- The greatest time of a clock, in milliseconds. -/
def MAX_TIME : Nat := 8640000000000000

/-- A message, as far as its file is concerned. -/
structure Row where
  content : Lib.Json
  /-- The adapter of its channel has `downloadMedia`. -/
  canDownload : Bool

/-- `MediaUrlService`. -/
structure MediaUrlService where
  /-- The derived key, where encryption is configured. -/
  key : Option Bytes
  hmac : Hmac
  apiBaseUrl : String

/-- What the router reads from a request. -/
structure Request where
  messageId : String
  exp : Option String
  sig : Option String
deriving DecidableEq, Repr

/-- The text that is signed. -/
def signedText (messageId : String) (expires : Rat) : Bytes :=
  Lib.Utf8.encode (messageId ++ "." ++ numberText expires)

/-- `Number.isInteger`, with the integer. -/
def integer? : Number → Option Rat
  | .finite value => if value.den = 1 then some value else none
  | _ => none

/-- The content is that of a file. -/
def isMedia (content : Lib.Json) : Bool :=
  match content.property? "type" with
  | some (.string type) => type = "MEDIA"
  | _ => false

/-- A text of the content. -/
def stringOf : Option Lib.Json → Option String
  | some (.string text) => some text
  | _ => none

/-! ## Files -/

/-- `MediaReference`. -/
structure MediaReference where
  providerMediaId : Option String
  directUrl : Option String
  mimeType : Option String
deriving DecidableEq, Repr

/-- `MediaDownloadResult`. -/
structure MediaDownloadResult where
  data : Bytes
  mimeType : String
  sizeBytes : Nat
  filename : Option String
deriving DecidableEq, Repr

/-- What `downloadMedia` or the decryption of the credentials throws. -/
structure DownloadError where
  /-- A `ChannelProviderError` of the category `NOT_FOUND`. -/
  notFound : Bool
  /-- The message, where an `Error` was thrown. -/
  message : Option String
deriving DecidableEq, Repr

/-- The file that a message refers to. -/
def mediaReference (content : Lib.Json) : MediaReference where
  providerMediaId := stringOf (content.property? "providerMediaId")
  directUrl := stringOf (content.property? "url")
  mimeType := stringOf (content.property? "mimeType")

/-- `\w`. -/
def isWordChar (c : Char) : Bool := c.isAlphanum || c = '_'

/-- `INLINE_TYPES`. -/
def isInline (mimeType : String) : Bool :=
  let lower := mimeType.toList.map Char.toLower
  ["image/jpeg", "image/png", "image/gif", "image/webp", "video/mp4", "video/3gpp", "video/webm",
      "video/quicktime", "application/pdf"].any (fun type => type.toList = lower) ||
    match lower.dropPrefix? "audio/".toList with
    | some name =>
        !name.isEmpty && name.all fun c => isWordChar c || c = '.' || c = '+' || c = '-'
    | none => false

/-- `replace(/[^\w.\- ]+/g, '_')`: each run of other characters is one underscore. -/
def replaceRuns (inRun : Bool) : List Char → List Char
  | [] => []
  | c :: rest =>
      if isWordChar c || c = '.' || c = '-' || c = ' ' then c :: replaceRuns false rest
      else if inRun then replaceRuns true rest
      else '_' :: replaceRuns true rest

/-- The name under which a file is saved. -/
def savedName (content : Lib.Json) (file : MediaDownloadResult) : String :=
  let name := (stringOf (content.property? "filename")).getD (file.filename.getD "attachment")
  String.ofList ((replaceRuns false name.toList).take 120)

/-- The headers of a file. -/
def fileHeaders (content : Lib.Json) (file : MediaDownloadResult) : List (String × String) :=
  let mimeType := trim (String.ofList (file.mimeType.toList.takeWhile (· ≠ ';')))
  let inline := isInline mimeType
  [("Content-Type", if inline then mimeType else "application/octet-stream"),
    ("Content-Length", toString file.sizeBytes),
    ("Content-Disposition", (if inline then "inline" else "attachment") ++ "; filename=\"" ++
      savedName content file ++ "\""),
    ("Cache-Control", "private, max-age=3600"),
    ("X-Content-Type-Options", "nosniff"),
    ("Content-Security-Policy", "default-src 'none'; sandbox")]

/-- How a request ends. -/
inductive Response where
  /-- 403. -/
  | linkInvalid
  /-- 404. -/
  | mediaNotFound (message : String)
  /-- 404. -/
  | mediaExpired (message : String)
  /-- 502. -/
  | mediaUnavailable (message : String)
  /-- 200, with the file of the message. -/
  | streams (messageId : Id) (headers : List (String × String)) (data : Bytes)
deriving DecidableEq, Repr

/-- The `catch` of a download. -/
def downloadFailed (error : DownloadError) : Response :=
  let message := error.message.getD "The file could not be fetched from the provider."
  if error.notFound then .mediaExpired message else .mediaUnavailable message

namespace MediaUrlService

variable (S : MediaUrlService)

def tag (key text : Bytes) : String := Adapters.hmacBase64Url S.hmac key text

/-- `signature`. -/
def signature (key : Bytes) (messageId : String) (expires : Rat) : String :=
  S.tag key (signedText messageId expires)

/-- What is before the message id in a link. -/
def mediaPath : String := S.apiBaseUrl ++ "/api/v1/media/"

/-- The link of a message with this expiry. -/
def link (key : Bytes) (messageId : String) (expires : Nat) : String :=
  S.mediaPath ++ encodeURIComponent messageId ++ "?" ++
    String.ofList (Lib.SearchParams.write
      [("exp", numberText expires), ("sig", S.signature key messageId expires)])

/-- `sign`. -/
def sign (now : Nat) (messageId : String) : Option String :=
  S.key.map fun key => S.link key messageId (now / 1000 + MEDIA_URL_TTL_SECONDS)

/-- `verify`. -/
def verify (now : Nat) (messageId : String) (exp sig : Option String) : Bool :=
  match S.key, truthy exp, truthy sig with
  | some key, some exp, some sig =>
      match integer? (toNumber exp) with
      | some expires =>
          !decide (expires < ((now / 1000 : Nat) : Rat)) &&
            safeEqual sig (S.signature key messageId expires)
      | none => false
  | _, _, _ => false

/-- `mediaUrlFor`. -/
def mediaUrlFor (now : Nat) (messageId : Id) (message : Row) : Option String :=
  if !isMedia message.content || !message.canDownload then none
  else if (stringOf (message.content.property? "providerMediaId")).isNone &&
      (stringOf (message.content.property? "url")).isNone then none
  else S.sign now messageId

/-- `download`, with what the adapter's `downloadMedia` gives. -/
def download (findUnique : Id → Option Row)
    (downloadMedia : MediaReference → Except DownloadError MediaDownloadResult) (now : Nat)
    (request : Request) : Response :=
  if !S.verify now request.messageId request.exp request.sig then .linkInvalid
  else
    match findUnique request.messageId with
    | none => .mediaNotFound "This message has no media."
    | some message =>
        if !isMedia message.content then .mediaNotFound "This message has no media."
        else if !message.canDownload then
          .mediaNotFound "This channel does not provide media downloads."
        else
          match downloadMedia (mediaReference message.content) with
          | .error error => downloadFailed error
          | .ok file =>
              .streams request.messageId (fileHeaders message.content file) file.data

/-- The request for a URL. -/
def request? (url : String) : Option Request := do
  let rest ← url.toList.dropPrefix? S.mediaPath.toList
  let segment := rest.takeWhile (· ≠ '?')
  let messageId ← Lib.Percent.decodeURIComponent segment
  let params := Lib.SearchParams.parse ((rest.dropWhile (· ≠ '?')).drop 1)
  some {
    messageId := messageId
    exp := Lib.SearchParams.get params "exp"
    sig := Lib.SearchParams.get params "sig" }

end MediaUrlService

/-! ## Runs -/

/-- A link that was given out. -/
structure Given where
  messageId : Id
  /-- When, in milliseconds. -/
  givenAt : Nat
  url : String
deriving DecidableEq, Repr

/-- The expiry that the link names, in seconds. -/
def Given.expires (g : Given) : Nat := g.givenAt / 1000 + MEDIA_URL_TTL_SECONDS

/-- The messages, and the links that were given out. -/
structure World where
  messages : Id → Option Row
  given : List Given

def World.empty : World := { messages := fun _ => none, given := [] }

inductive Action where
  /-- A message is written, changed or deleted. -/
  | store (messageId : Id) (message : Option Row)
  /-- A message is listed. -/
  | list (now : Nat) (messageId : Id)

/-- One step. -/
def step (S : MediaUrlService) (w : World) : Action → Option World
  | .store messageId message =>
      some { w with messages := Function.update w.messages messageId message }
  | .list now messageId =>
      if now ≤ MAX_TIME then
        some { w with
          given := (((w.messages messageId).bind (S.mediaUrlFor now messageId)).map
            fun url => { messageId := messageId, givenAt := now, url := url }).toList ++ w.given }
      else none

/-- Messages are stored and listed. -/
def machine (S : MediaUrlService) : Machine World Action := { step := step S }

/-- The text that was signed for a link. -/
def Given.text (g : Given) : Bytes := signedText g.messageId g.expires

/-- A request with the signature of a link and its expiry. -/
def Opens (S : MediaUrlService) (g : Given) (request : Request) : Prop :=
  request.messageId = g.messageId ∧
    request.exp.map toNumber = some (.finite (g.expires : Rat)) ∧
      ∃ key, S.key = some key ∧ request.sig = some (S.tag key g.text)

/-- Nobody made the signature of a request without the key. -/
def Request.Unforged (S : MediaUrlService) (w : World) (request : Request) : Prop :=
  ∀ key exp expires sig, S.key = some key → request.exp = some exp →
    integer? (toNumber exp) = some expires → request.sig = some sig →
      Adapters.Unforged (S.tag key) (fun text => ∃ g ∈ w.given, text = g.text)
        (signedText request.messageId expires) sig

/-! ## Signed texts -/

/-- The expiry of a link that was given out is an integer below 2 ^ 53. -/
theorem expires_lt {g : Given} (h : g.givenAt ≤ MAX_TIME) : g.expires < 2 ^ 53 := by
  simp only [Given.expires, MEDIA_URL_TTL_SECONDS]
  simp only [MAX_TIME] at h
  omega

/-- A signed text has one message id and one expiry, where the expiry is that of a
link that was given out. -/
theorem signedText_inj {messageId messageId' : String} {j k : Nat} (hj : j < 2 ^ 53)
    (hk : Number.round k = .finite k) (h : signedText messageId j = signedText messageId' k) :
    messageId = messageId' ∧ j = k := by
  have htext : messageId ++ "." ++ numberText j = messageId' ++ "." ++ numberText k := by
    have hdecoded := congrArg Lib.Utf8.decode h
    rwa [signedText, signedText, Lib.Utf8.decode_encode, Lib.Utf8.decode_encode] at hdecoded
  have hchars := congrArg String.toList htext
  simp only [String.toList_append, List.append_assoc] at hchars
  have hdot : Char.isDigit '.' = false ∧ '.' ≠ '+' ∧ '.' ≠ '-' := by decide
  obtain ⟨hid, hexpires⟩ := Lib.eq_of_append_numberText hdot hj hk hchars
  exact ⟨String.toList_inj.mp hid, hexpires⟩

/-- What is accepted as an expiry is a natural number, and a double. -/
theorem exists_of_integer? {exp : String} {expires : Rat} {now : Nat}
    (h : integer? (toNumber exp) = some expires) (hnow : ((now : Nat) : Rat) ≤ expires) :
    toNumber exp = .finite expires ∧ ∃ k : Nat, expires = k ∧ Number.round k = .finite k := by
  cases hread : toNumber exp with
  | nan => rw [hread] at h; cases h
  | infinite negative => rw [hread] at h; cases h
  | finite value =>
      rw [hread, integer?] at h
      split at h
      next hden =>
        cases h
        have hvalue : ((expires.num : Int) : Rat) = expires := Rat.coe_int_num_of_den_eq_one hden
        have hnonneg : 0 ≤ expires.num := by
          have : (0 : Rat) ≤ expires := le_trans (Nat.cast_nonneg now) hnow
          exact Rat.num_nonneg.mpr this
        obtain ⟨k, hk⟩ := Int.eq_ofNat_of_zero_le hnonneg
        have hcast : expires = k := by rw [← hvalue, hk, Int.cast_natCast]
        refine ⟨rfl, k, hcast, ?_⟩
        rw [← hcast]
        exact Lib.round_of_ofLiteral hread
      next => cases h

/-- The text of an expiry is read back. -/
theorem toNumber_numberText {k : Nat} (hk : k < 2 ^ 53) :
    toNumber (numberText k) = .finite k := by
  have hplain : ∀ c ∈ (numberText (k : Rat)).toList, isSpace c = false := by
    intro c hc
    have hrange : 48 ≤ c.toNat ∧ c.toNat ≤ 57 :=
      Char.isDigit_iff_toNat.mp (Lib.digits_numberText hk c hc)
    simp only [isSpace, List.mem_cons, List.not_mem_nil, decide_eq_false_iff_not,
      Bool.or_eq_false_iff, Bool.and_eq_false_iff, or_false]
    omega
  rw [toNumber, Credentials.trimChars_eq_self hplain, Lib.ofLiteral_numberText hk]

/-! ## Links and requests -/

variable {S : MediaUrlService}

/-- What holds of the links that were given out. -/
def Sound (S : MediaUrlService) (w : World) : Prop :=
  ∀ g ∈ w.given, g.givenAt ≤ MAX_TIME ∧
    ∃ key, S.key = some key ∧ g.url = S.link key g.messageId g.expires

/-- A link of `mediaUrlFor` is that of the message, with the expiry of now. -/
theorem exists_of_mediaUrlFor {now : Nat} {messageId : Id} {message : Row} {url : String}
    (h : S.mediaUrlFor now messageId message = some url) :
    ∃ key, S.key = some key ∧ url = S.link key messageId (now / 1000 + MEDIA_URL_TTL_SECONDS) := by
  unfold MediaUrlService.mediaUrlFor at h
  split at h
  · cases h
  · split at h
    · cases h
    · obtain ⟨key, hkey, hurl⟩ := Option.map_eq_some_iff.mp h
      exact ⟨key, hkey, hurl.symm⟩

theorem sound_step {w w' : World} {a : Action} (hs : Sound S w) (h : step S w a = some w') :
    Sound S w' := by
  cases a with
  | store messageId message =>
      cases h
      exact hs
  | list now messageId =>
      rw [step] at h
      split at h
      next hnow =>
        cases h
        intro g hg
        rcases List.mem_append.mp hg with hnew | hold
        · rw [Option.mem_toList, Option.map_eq_some_iff] at hnew
          obtain ⟨url, hurl, rfl⟩ := hnew
          obtain ⟨message, _, hlink⟩ := Option.bind_eq_some_iff.mp hurl
          exact ⟨hnow, exists_of_mediaUrlFor hlink⟩
        · exact hs g hold
      next => cases h

theorem sound_run {actions : List Action} {w : World}
    (h : (machine S).run World.empty actions = some w) : Sound S w := by
  refine Machine.invariant (I := Sound S) (fun _ _ _ => sound_step) ?_ h
  intro g hg
  cases hg

/-- The request for a link that was given out opens it. -/
theorem opens_request {w : World} (hs : Sound S w) {g : Given} (hg : g ∈ w.given) :
    ∃ request, S.request? g.url = some request ∧ Opens S g request := by
  obtain ⟨hnow, key, hkey, hurl⟩ := hs g hg
  have hmark : ∀ c ∈ (encodeURIComponent g.messageId).toList, decide (c ≠ '?') = true := by
    intro c hc
    rw [encodeURIComponent, Lib.Percent.encode, String.toList_ofList] at hc
    refine decide_eq_true ?_
    rintro rfl
    rcases Lib.Percent.mem_encodeChars hc with hkept | hpercent | ⟨n, hn, hdigit⟩
    · exact absurd hkept (by decide)
    · exact absurd hpercent (by decide)
    · exact (Lib.Percent.hexDigit_facts n hn).2.2.2.2.1 hdigit.symm
  refine ⟨⟨g.messageId, some (numberText (g.expires : Rat)), some (S.tag key g.text)⟩, ?_,
    rfl, ?_, key, hkey, rfl⟩
  · have hchars : g.url.toList = S.mediaPath.toList ++
        ((encodeURIComponent g.messageId).toList ++ '?' :: Lib.SearchParams.write
          [("exp", numberText g.expires), ("sig", S.signature key g.messageId g.expires)]) := by
      rw [hurl, MediaUrlService.link]
      simp only [String.toList_append, String.toList_ofList, List.append_assoc]
      rfl
    rw [MediaUrlService.request?, hchars, List.dropPrefix?_append_of_beq _ (beq_self_eq_true _)]
    simp only [Option.bind_eq_bind, Option.bind_some]
    rw [List.takeWhile_append_of_pos hmark, List.dropWhile_append_of_pos hmark,
      List.takeWhile_cons_of_neg (by decide), List.dropWhile_cons_of_neg (by decide),
      List.append_nil, encodeURIComponent, Lib.Percent.decodeURIComponent_encode (by decide),
      List.drop_one, List.tail_cons, Lib.SearchParams.parse_write]
    rfl
  · rw [Option.map_some, toNumber_numberText (expires_lt hnow)]

/-- `verify` accepts the signatures of the links that were given out, with their
expiry, until it is over. -/
theorem verify_iff {w : World} (hs : Sound S w)
    (hdigest : ∀ key text, (S.hmac key text).length = 32) {now : Nat} {request : Request}
    (hunforged : request.Unforged S w) :
    S.verify now request.messageId request.exp request.sig = true ↔
      ∃ g ∈ w.given, Opens S g request ∧ now / 1000 ≤ g.expires := by
  constructor
  · intro hverify
    unfold MediaUrlService.verify at hverify
    split at hverify
    next key exp sig hkey hexp hsig =>
      split at hverify
      next expires hexpires =>
        rw [Bool.and_eq_true, Bool.not_eq_true', decide_eq_false_iff_not, not_lt, safeEqual_iff]
          at hverify
        obtain ⟨hnow, hsame⟩ := hverify
        obtain ⟨hread, k, rfl, hround⟩ := exists_of_integer? hexpires hnow
        obtain ⟨hsig, _⟩ := truthy_eq_some.mp hsig
        obtain ⟨hexp, _⟩ := truthy_eq_some.mp hexp
        obtain ⟨g, hg, htext⟩ := hunforged key exp k sig hkey hexp hexpires hsig hsame.symm
        obtain ⟨hid, hk⟩ := signedText_inj (expires_lt (hs g hg).1) hround htext.symm
        refine ⟨g, hg, ⟨hid.symm, ?_, key, hkey, ?_⟩, ?_⟩
        · rw [hexp, Option.map_some, hread, hk]
        · rw [hsig, hsame, MediaUrlService.signature, htext]
        · rw [hk]
          exact_mod_cast hnow
      next => cases hverify
    next => cases hverify
  · rintro ⟨g, hg, ⟨hid, hexp, key, hkey, hsig⟩, hnow⟩
    obtain ⟨exp, hexp, hread⟩ := Option.map_eq_some_iff.mp hexp
    have hexpires : (g.expires : Rat) ≠ 0 := by
      have : g.expires ≠ 0 := by
        simp only [Given.expires, MEDIA_URL_TTL_SECONDS]
        omega
      exact_mod_cast this
    have hne : exp ≠ "" := by
      rintro rfl
      have hzero : toNumber "" = .finite 0 := rfl
      rw [hzero] at hread
      exact hexpires (Number.finite.inj hread).symm
    have hint : integer? (toNumber exp) = some (g.expires : Rat) := by
      rw [hread, integer?, if_pos (Rat.den_natCast g.expires)]
    have htag : S.tag key g.text ≠ "" := Adapters.hmacBase64Url_ne_empty hdigest key g.text
    unfold MediaUrlService.verify
    rw [hkey, hexp, hsig, truthy_eq_some.mpr ⟨rfl, hne⟩, truthy_eq_some.mpr ⟨rfl, htag⟩]
    simp only [hint]
    rw [Bool.and_eq_true, Bool.not_eq_true', decide_eq_false_iff_not, not_lt, safeEqual_iff, hid]
    exact ⟨by exact_mod_cast hnow, rfl⟩

/-- A request that is let through ends as the provider says. -/
theorem download_of_verified {messages : Id → Option Row}
    {downloadMedia : MediaReference → Except DownloadError MediaDownloadResult} {now : Nat}
    {request : Request} (h : S.verify now request.messageId request.exp request.sig = true)
    {messageId : Id} {headers : List (String × String)} {data : Bytes} :
    S.download messages downloadMedia now request = .streams messageId headers data ↔
      request.messageId = messageId ∧ ∃ message file, messages messageId = some message ∧
        isMedia message.content = true ∧ message.canDownload = true ∧
          downloadMedia (mediaReference message.content) = .ok file ∧
            headers = fileHeaders message.content file ∧ data = file.data := by
  unfold MediaUrlService.download
  rw [h, Bool.not_true, if_neg Bool.false_ne_true]
  constructor
  · intro hstreams
    split at hstreams
    next => cases hstreams
    next message hmessage =>
      split at hstreams
      next => cases hstreams
      next hmedia =>
        split at hstreams
        next => cases hstreams
        next hdownload =>
          split at hstreams
          next error _ =>
            unfold downloadFailed at hstreams
            split at hstreams
            · cases hstreams
            · cases hstreams
          next file hfile =>
            cases hstreams
            rw [Bool.not_eq_true', Bool.not_eq_false] at hmedia hdownload
            exact ⟨rfl, message, file, hmessage, hmedia, hdownload, hfile, rfl, rfl⟩
  · rintro ⟨rfl, message, file, hmessage, hmedia, hdownload, hfile, rfl, rfl⟩
    simp [hmessage, hmedia, hdownload, hfile]

theorem download_ne_linkInvalid {messages : Id → Option Row}
    {downloadMedia : MediaReference → Except DownloadError MediaDownloadResult} {now : Nat}
    {request : Request} (h : S.verify now request.messageId request.exp request.sig = true) :
    S.download messages downloadMedia now request ≠ .linkInvalid := by
  unfold MediaUrlService.download
  rw [h, Bool.not_true, if_neg Bool.false_ne_true]
  split
  next => exact nofun
  next =>
    split
    · exact nofun
    · split
      · exact nofun
      · split
        next =>
          unfold downloadFailed
          split
          · exact nofun
          · exact nofun
        next => exact nofun

/-- In every run, a request that nobody forged is let through exactly when it opens a
link that was given out for this message, before the hour of the link is over.  It
streams the file of the message exactly when it is let through, the message still is
media on a channel that downloads, and the provider answers with a file, and it
streams this file.  The URL of every link that was given out makes such a request. -/
theorem media_served_by_links (hdigest : ∀ key text, (S.hmac key text).length = 32)
    {actions : List Action} {w : World} (hrun : (machine S).run World.empty actions = some w) :
    (∀ now request, request.Unforged S w → ∀ downloadMedia,
      (S.download w.messages downloadMedia now request ≠ .linkInvalid ↔
        ∃ g ∈ w.given, Opens S g request ∧ now / 1000 ≤ g.givenAt / 1000 + 60 * 60) ∧
      ∀ messageId headers data,
        S.download w.messages downloadMedia now request = .streams messageId headers data ↔
          (∃ g ∈ w.given, g.messageId = messageId ∧ Opens S g request ∧
            now / 1000 ≤ g.givenAt / 1000 + 60 * 60) ∧
          ∃ message file, w.messages messageId = some message ∧ isMedia message.content = true ∧
            message.canDownload = true ∧ downloadMedia (mediaReference message.content) = .ok file ∧
              headers = fileHeaders message.content file ∧ data = file.data) ∧
    ∀ g ∈ w.given, ∃ request, S.request? g.url = some request ∧ Opens S g request := by
  have hs := sound_run hrun
  refine ⟨fun now request hunforged downloadMedia => ?_, fun g hg => opens_request hs hg⟩
  have hverify : S.verify now request.messageId request.exp request.sig = true ↔
      ∃ g ∈ w.given, Opens S g request ∧ now / 1000 ≤ g.givenAt / 1000 + 60 * 60 :=
    verify_iff hs hdigest hunforged
  cases hvalid : S.verify now request.messageId request.exp request.sig with
  | false =>
      rw [hvalid] at hverify
      have hclosed : S.download w.messages downloadMedia now request = .linkInvalid := by
        rw [MediaUrlService.download, hvalid, Bool.not_false, if_pos rfl]
      refine ⟨⟨fun hne => absurd hclosed hne, fun hopens => ?_⟩, fun messageId headers data => ?_⟩
      · exact absurd (hverify.mpr hopens) Bool.false_ne_true
      · rw [hclosed]
        constructor
        · intro hstreams
          cases hstreams
        · rintro ⟨⟨g, hg, _, hopens⟩, _⟩
          exact absurd (hverify.mpr ⟨g, hg, hopens⟩) Bool.false_ne_true
  | true =>
      obtain ⟨g, hg, hopens, hnow⟩ := hverify.mp hvalid
      refine ⟨⟨fun _ => ⟨g, hg, hopens, hnow⟩, fun _ => ?_⟩, fun messageId headers data => ?_⟩
      · exact download_ne_linkInvalid hvalid
      · rw [download_of_verified hvalid]
        constructor
        · rintro ⟨rfl, hfile⟩
          exact ⟨⟨g, hg, hopens.1.symm, hopens, hnow⟩, hfile⟩
        · rintro ⟨⟨g', _, rfl, hopens', _⟩, hfile⟩
          exact ⟨hopens'.1, hfile⟩

/-- A service with a key. -/
def exampleService : MediaUrlService where
  key := some []
  hmac := Adapters.exampleHmac (signedText "m1" (3600 : Nat))
  apiBaseUrl := "https://api.vynor.test"

/-- A photo. -/
def exampleRow : Row where
  content := .object [("type", .string "MEDIA"), ("providerMediaId", .string "p1")]
  canDownload := true

/-- The photo was listed at time zero. -/
def exampleWorld : World where
  messages := Function.update (fun _ => none) "m1" (some exampleRow)
  given := [{ messageId := "m1", givenAt := 0, url := exampleService.link [] "m1" 3600 }]

theorem exampleRequest_unforged {request : Request}
    (h : ∃ g ∈ exampleWorld.given, Opens exampleService g request) :
    request.Unforged exampleService exampleWorld := by
  obtain ⟨g, hg, _, _, key, hkey, hsig⟩ := h
  rw [exampleWorld, List.mem_singleton] at hg
  cases hkey
  intro key exp expires sig hkey _ _ hpresented htag
  cases hkey
  rw [hsig] at hpresented
  cases hpresented
  have htext : g.text = signedText "m1" (3600 : Nat) := by
    rw [hg]
    rfl
  have hdigests := Adapters.hmacBase64Url_inj htag
  rw [htext] at hdigests
  exact ⟨g, hg ▸ List.mem_cons_self, (Adapters.exampleHmac_inj [] hdigests).trans htext.symm⟩

def exampleFile : MediaDownloadResult := ⟨[1, 2, 3], "image/jpeg; q=1", 3, some "a/b c.jpg"⟩

/-- A type that may be shown, and a name whose slash is replaced. -/
example : (fileHeaders exampleRow.content exampleFile).take 3 =
    [("Content-Type", "image/jpeg"), ("Content-Length", "3"),
      ("Content-Disposition", "inline; filename=\"a_b c.jpg\"")] := by
  decide +kernel

/-- The photo is streamed to who has the link in the last second of its hour, and
not in the next one. -/
theorem photo_served_by_link : ∃ request : Request,
    (∃ headers, exampleService.download exampleWorld.messages (fun _ => .ok exampleFile) 3600999
      request = .streams "m1" headers [1, 2, 3]) ∧
      exampleService.download exampleWorld.messages (fun _ => .ok exampleFile) 3601000 request =
        .linkInvalid := by
  have hrun : (machine exampleService).run World.empty
      [.store "m1" (some exampleRow), .list 0 "m1"] = some exampleWorld := rfl
  have hserved := media_served_by_links (Adapters.length_exampleHmac _) hrun
  obtain ⟨request, _, hopens⟩ := hserved.2 _ List.mem_cons_self
  have hunforged := exampleRequest_unforged ⟨_, List.mem_cons_self, hopens⟩
  have hearly := hserved.1 3600999 request hunforged fun _ => .ok exampleFile
  have hlate := hserved.1 3601000 request hunforged fun _ => .ok exampleFile
  refine ⟨request, ⟨fileHeaders exampleRow.content exampleFile, ?_⟩, ?_⟩
  · refine (hearly.2 "m1" _ _).mpr ⟨⟨_, List.mem_cons_self, rfl, hopens, by decide⟩, exampleRow,
      exampleFile, rfl, rfl, rfl, rfl, rfl, rfl⟩
  · by_contra hopen
    obtain ⟨g, hg, _, hnow⟩ := hlate.1.mp hopen
    rw [exampleWorld, List.mem_singleton] at hg
    rw [hg] at hnow
    revert hnow
    decide

end Vynor.Conversations.MediaLinks
