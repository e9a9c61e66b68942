import Vynor.Contracts.Content
import Vynor.Lib.Doubles
import Vynor.Lib.IsoDate
import Vynor.Lib.OrderedMap
import Vynor.Lib.Percent

/-!
# The requests of the storage adapter

`createSignedDownload` signs a download in the query of its URL, and
`buildAuthorizationHeaders` signs an upload in its headers.  Both put the parts
of the request into one text, hash it, and sign the hash with a key that is
derived from the secret.
-/

namespace Vynor.Storage

open Lib (Bytes Double Number)
open Lib.IsoDate (isTimeValue toISOString)

/-! ## The runtime -/

/-- A URL as `new URL` reads it. -/
structure ParsedUrl where
  host : String
  pathname : String
  /-- `searchParams.toString()`. -/
  search : String

/-- What the adapter uses of its runtime. -/
structure Runtime where
  /-- The hash of a text, in hexadecimal. -/
  sha256 : String → String
  /-- The bytes of `createHmac` for a key and a text. -/
  hmac : Bytes → String → Bytes
  /-- `new URL`, or `none` where it throws. -/
  parseUrl : String → Option ParsedUrl
  toLowerCase : String → String

/-- The characters that `encodeURIComponent` keeps besides letters and digits. -/
def componentMarks : List Char := "-_.!~*'()".toList

def isComponentChar (c : Char) : Bool := c.isAlphanum || c ∈ componentMarks

/-- `encodeURIComponent`. -/
def encodeURIComponent (text : String) : String := Lib.Percent.encode isComponentChar text

/-- `replace(/[:-]|\.\d{3}/g, '')`. -/
def compact : List Char → List Char
  | '.' :: a :: b :: c :: cs =>
      if a.isDigit && b.isDigit && c.isDigit then compact cs else '.' :: compact (a :: b :: c :: cs)
  | c :: cs => if c = ':' ∨ c = '-' then compact cs else c :: compact cs
  | [] => []

/-- A moment without separators and milliseconds. -/
def isoDateOf (now : Date) : String := String.ofList (compact (toISOString now).toList)

/-- `isoDate.substring(0, 8)`. -/
def dateStampOf (isoDate : String) : String := String.ofList (isoDate.toList.take 8)

/-- The entries of a record in the order of `Object.keys(record).sort()`. -/
def sortedEntries (record : List (String × String)) : List (String × String) :=
  record.mergeSort fun p q => decide (codeUnits p.1 ≤ codeUnits q.1)

/-! ## The adapter -/

/-- `StorageClientConfig`. -/
structure StorageClientConfig where
  endpoint : String
  region : String
  accessKeyId : String
  secretAccessKey : String
  defaultBucket : Option String := none

structure RustFsStorageAdapter where
  endpoint : String
  region : String
  accessKeyId : String
  secretAccessKey : String
  defaultBucket : Option String

/-- `createStorageClient`. -/
def createStorageClient (config : StorageClientConfig) : RustFsStorageAdapter where
  endpoint := String.ofList (config.endpoint.toList.reverse.dropWhile (· = '/')).reverse
  region := (truthy (some config.region)).getD "us-east-1"
  accessKeyId := config.accessKeyId
  secretAccessKey := config.secretAccessKey
  defaultBucket := truthy config.defaultBucket

/-- `StorageObjectLocation`. -/
structure StorageObjectLocation where
  bucket : String
  key : String

/-- `input.location.bucket || this.defaultBucket`. -/
def RustFsStorageAdapter.bucketOf (adapter : RustFsStorageAdapter)
    (location : StorageObjectLocation) : Option String :=
  (truthy (some location.bucket)).or adapter.defaultBucket

/-- The key without its leading slashes. -/
def objectKey (location : StorageObjectLocation) : String :=
  String.ofList (location.key.toList.dropWhile (· = '/'))

/-- `getSigningKey`. -/
def getSigningKey (rt : Runtime) (adapter : RustFsStorageAdapter) (dateStamp : String) : Bytes :=
  let kDate := rt.hmac (Lib.Utf8.encode ("AWS4" ++ adapter.secretAccessKey)) dateStamp
  let kRegion := rt.hmac kDate adapter.region
  let kService := rt.hmac kRegion "s3"
  rt.hmac kService "aws4_request"

/-- `credentialScope`. -/
def credentialScope (adapter : RustFsStorageAdapter) (isoDate : String) : String :=
  dateStampOf isoDate ++ "/" ++ adapter.region ++ "/s3/aws4_request"

/-- The signature of a canonical request. -/
def signatureOf (rt : Runtime) (adapter : RustFsStorageAdapter)
    (isoDate canonicalRequest : String) : String :=
  let stringToSign := "\n".intercalate
    ["AWS4-HMAC-SHA256", isoDate, credentialScope adapter isoDate, rt.sha256 canonicalRequest]
  String.ofList (Bytes.hexChars
    (rt.hmac (getSigningKey rt adapter (dateStampOf isoDate)) stringToSign))

/-- Why a request is not made. -/
inductive StorageError where
  | error (message : String)
  | invalidUrl (url : String)
deriving DecidableEq, Repr

/-! ## Signed downloads -/

/-- `SignedDownloadInput`. -/
structure SignedDownloadInput where
  location : StorageObjectLocation
  expiresInSeconds : Double
  downloadFilename : Option String := none

/-- `replace(/["\r\n\\]/g, '_')`. -/
def sanitizeFilename (filename : String) : String :=
  String.ofList (filename.toList.map fun c => if c ∈ "\"\r\n\\".toList then '_' else c)

/-- `queryParams`. -/
def queryParams (adapter : RustFsStorageAdapter) (isoDate : String)
    (input : SignedDownloadInput) : List (String × String) :=
  [("X-Amz-Algorithm", "AWS4-HMAC-SHA256"),
    ("X-Amz-Credential", adapter.accessKeyId ++ "/" ++ credentialScope adapter isoDate),
    ("X-Amz-Date", isoDate),
    ("X-Amz-Expires", Lib.numberText input.expiresInSeconds.value),
    ("X-Amz-SignedHeaders", "host")] ++
  ((truthy input.downloadFilename).map fun filename =>
    ("response-content-disposition",
      "attachment; filename=\"" ++ sanitizeFilename filename ++ "\"")).toList

/-- `canonicalQueryString`. -/
def canonicalQueryString (params : List (String × String)) : String :=
  "&".intercalate ((sortedEntries params).map fun p =>
    encodeURIComponent p.1 ++ "=" ++ encodeURIComponent p.2)

/-- `encodedKey`. -/
def encodedKey (key : String) : String :=
  "/".intercalate (((key.toList.splitOn '/').map String.ofList).map encodeURIComponent)

/-- `canonicalUri`. -/
def canonicalUri (bucket key : String) : String :=
  "/" ++ encodeURIComponent bucket ++ "/" ++ encodedKey key

/-- The parts of the request that a signed download is for. -/
structure DownloadRequest where
  bucket : String
  key : String
  isoDate : String
  host : String
  canonicalUri : String
  canonicalQueryString : String

/-- The first half of `createSignedDownload`: what is signed, or why nothing is. -/
def downloadRequest (rt : Runtime) (adapter : RustFsStorageAdapter) (now : Date)
    (input : SignedDownloadInput) : Except StorageError DownloadRequest :=
  match adapter.bucketOf input.location with
  | none =>
      .error (.error "Storage bucket must be specified on location or configured default")
  | some bucket =>
      match rt.parseUrl adapter.endpoint with
      | none => .error (.invalidUrl adapter.endpoint)
      | some endpointUrl =>
          .ok
            { bucket := bucket
              key := objectKey input.location
              isoDate := isoDateOf now
              host := endpointUrl.host
              canonicalUri := canonicalUri bucket (objectKey input.location)
              canonicalQueryString :=
                canonicalQueryString (queryParams adapter (isoDateOf now) input) }

/-- `canonicalRequest` of a download. -/
def DownloadRequest.canonicalRequest (r : DownloadRequest) : String :=
  "\n".intercalate
    ["GET", r.canonicalUri, r.canonicalQueryString, "host:" ++ r.host ++ "\n", "host",
      "UNSIGNED-PAYLOAD"]

/-- `new Date(now.getTime() + expiresInSeconds * 1000)`, or `none` for an invalid
date. -/
def expiresAt (now : Date) (seconds : Double) : Option Date :=
  match Number.round (seconds.value * 1000) with
  | .finite ms =>
      match Number.round (now + ms) with
      | .finite moment =>
          let t := if 0 ≤ moment then moment.floor else moment.ceil
          if isTimeValue t = true then some t else none
      | _ => none
  | _ => none

/-- `SignedDownloadResult`. -/
structure SignedDownloadResult where
  url : String
  expiresAt : Option Date
deriving DecidableEq, Repr

/-- `createSignedDownload`. -/
def createSignedDownload (rt : Runtime) (adapter : RustFsStorageAdapter) (now : Date)
    (input : SignedDownloadInput) : Except StorageError SignedDownloadResult :=
  (downloadRequest rt adapter now input).map fun r =>
    { url := adapter.endpoint ++ r.canonicalUri ++ "?" ++ r.canonicalQueryString ++
        "&X-Amz-Signature=" ++ signatureOf rt adapter r.isoDate r.canonicalRequest
      expiresAt := expiresAt now input.expiresInSeconds }

/-! ## Signed headers -/

/-- The names of the headers in the order of `Object.keys(headers).sort()`. -/
def sortedHeaderKeys (headers : List (String × String)) : List String :=
  (headers.map Prod.fst).mergeSort fun a b => decide (codeUnits a ≤ codeUnits b)

/-- The headers of a request, with its host and its date. -/
def requestHeaders (additionalHeaders : List (String × String)) (host isoDate : String) :
    List (String × String) :=
  Lib.OrderedMap.set (Lib.OrderedMap.set additionalHeaders "host" host) "x-amz-date" isoDate

/-- The names that are signed, in the order in which they are written. -/
def signedHeaderNames (rt : Runtime) (headers : List (String × String)) : List String :=
  (sortedHeaderKeys headers).map rt.toLowerCase

/-- `canonicalHeaders`. -/
def canonicalHeaders (rt : Runtime) (headers : List (String × String)) : String :=
  "".intercalate ((sortedHeaderKeys headers).map fun k =>
    rt.toLowerCase k ++ ":" ++ trim ((Lib.OrderedMap.get? headers k).getD "") ++ "\n")

/-- `signedHeaders`. -/
def signedHeaders (rt : Runtime) (headers : List (String × String)) : String :=
  ";".intercalate (signedHeaderNames rt headers)

/-- `buildAuthorizationHeaders`. -/
def buildAuthorizationHeaders (rt : Runtime) (adapter : RustFsStorageAdapter) (now : Date)
    (method rawUrl : String) (additionalHeaders : List (String × String)) :
    Except StorageError (List (String × String)) :=
  match rt.parseUrl rawUrl with
  | none => .error (.invalidUrl rawUrl)
  | some url =>
      let isoDate := isoDateOf now
      let headers := requestHeaders additionalHeaders url.host isoDate
      let canonicalRequest := "\n".intercalate
        [method, url.pathname, url.search, canonicalHeaders rt headers, signedHeaders rt headers,
          (truthy (Lib.OrderedMap.get? headers "x-amz-content-sha256")).getD "UNSIGNED-PAYLOAD"]
      .ok (Lib.OrderedMap.set headers "authorization"
        ("AWS4-HMAC-SHA256 Credential=" ++ adapter.accessKeyId ++ "/" ++
          credentialScope adapter isoDate ++ ", SignedHeaders=" ++ signedHeaders rt headers ++
          ", Signature=" ++ signatureOf rt adapter isoDate canonicalRequest))

/-- `PutObjectInput`.  `metadata` is a record, given by its entries. -/
structure PutObjectInput where
  location : StorageObjectLocation
  contentType : String
  contentLength : Double
  checksumSha256 : String
  metadata : Option (List (String × String)) := none

/-- The prefix of the headers that carry metadata. -/
def metadataPrefix : String := "x-amz-meta-"

/-- The headers of an upload. -/
def putHeaders (input : PutObjectInput) : List (String × String) :=
  (input.metadata.getD []).foldl
    (fun headers p => Lib.OrderedMap.set headers (metadataPrefix ++ p.1) p.2)
    [("content-type", input.contentType),
      ("content-length", Lib.numberText input.contentLength.value),
      ("x-amz-content-sha256", input.checksumSha256)]

/-- The URL of an upload. -/
def putUrl (adapter : RustFsStorageAdapter) (location : StorageObjectLocation) : String :=
  adapter.endpoint ++ "/" ++
    encodeURIComponent ((adapter.bucketOf location).getD "undefined") ++ "/" ++ objectKey location

/-- `put` up to the request it sends: the URL and the headers. -/
def put (rt : Runtime) (adapter : RustFsStorageAdapter) (now : Date) (input : PutObjectInput) :
    Except StorageError (String × List (String × String)) :=
  let url := putUrl adapter input.location
  (buildAuthorizationHeaders rt adapter now "PUT" url (putHeaders input)).map fun headers =>
    (url, headers)

end Vynor.Storage
