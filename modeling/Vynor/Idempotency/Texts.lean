import Vynor.Basic
import Vynor.Lib.Expiring
import Vynor.Lib.JsonText

/-!
# Idempotency records as texts

The two stores with what each of them keeps.  The Redis one keeps the JSON text
of a record, and a lease is the text that its claim wrote, so `complete` and
`release` compare texts.  The memory one keeps objects, and the text of the
lease beside the value of a claim.

A call happens at one moment.  A record is given back as the JSON value of it,
since the body of a response is compared up to its JSON.
-/

namespace Vynor.Idempotency.Texts

open Lib (Expiring Timed Json)

/-! ## Records -/

/-- The bodies of responses, and what `JSON.stringify` makes of one.  It leaves
out a body such as `undefined`. -/
structure Bodies where
  Body : Type
  toJson : Body → Option Json
  sound : ∀ body value, toJson body = some value → value.isSound = true

/-- A status code that is a number. -/
structure StatusCode where
  value : Rat
  sound : Json.readsBack (.finite value) = true

variable {B : Bodies}

/-- `StoredResponse`. -/
structure StoredResponse (B : Bodies) where
  statusCode : StatusCode
  body : B.Body

/-- `IdempotencyRecord`. -/
inductive IdempotencyRecord (B : Bodies) where
  | inFlight (fingerprint : String)
  | completed (fingerprint : String) (response : StoredResponse B)

def StoredResponse.toJson (response : StoredResponse B) : Json :=
  .object (("statusCode", .number (.finite response.statusCode.value)) ::
    ((B.toJson response.body).toList.map fun body => ("body", body)))

def IdempotencyRecord.toJson : IdempotencyRecord B → Json
  | .inFlight fingerprint =>
      .object [("status", .string "IN_FLIGHT"), ("fingerprint", .string fingerprint)]
  | .completed fingerprint response =>
      .object [("status", .string "COMPLETED"), ("fingerprint", .string fingerprint),
        ("response", response.toJson)]

/-- `StoredInFlight`, with the UUID that `randomUUID` gave. -/
def storedInFlight (fingerprint uuid : String) : Json :=
  .object [("status", .string "IN_FLIGHT"), ("fingerprint", .string fingerprint),
    ("lease", .string uuid)]

/-- `inFlightValue`. -/
def inFlightValue (fingerprint uuid : String) : String :=
  Json.stringify (storedInFlight fingerprint uuid)

/-- `toRecord`, of a value that was parsed. -/
def toRecord (value : Json) : Json :=
  match value.property? "status" with
  | some (.string status) =>
      if status = "IN_FLIGHT" then
        .object (("status", .string "IN_FLIGHT") ::
          ((value.property? "fingerprint").toList.map fun f => ("fingerprint", f)))
      else value
  | _ => value

/-! ## Calls -/

/-- A call of a store.  The UUID of a claim is the one its lease is made of. -/
inductive Call (B : Bodies) where
  | claim (key fingerprint : String) (ttlMs : Int) (uuid : String)
  | complete (key lease fingerprint : String) (response : StoredResponse B) (ttlMs : Int)
  | release (key lease : String)

/-- What a call ends with. -/
inductive Outcome where
  | claimed (lease : String)
  | found (record : Json)
  | completed (stored : Bool)
  | released
  /-- The promise is rejected. -/
  | rejected

/-- A store as its calls show it. -/
structure IdempotencyStore (B : Bodies) where
  State : Type
  empty : State
  call : State → (now : Date) → Call B → State × Outcome

/-- What the calls end with, one after the other. -/
def IdempotencyStore.outcomes (S : IdempotencyStore B) : S.State → List (Date × Call B) →
    List Outcome
  | _, [] => []
  | s, c :: calls => (S.call s c.1 c.2).2 :: S.outcomes (S.call s c.1 c.2).1 calls

/-! ## Redis -/

/-- The keys of a Redis database. -/
abbrev RedisDb := Expiring Date String String

/-- `GET`. -/
def redisGet (db : RedisDb) (now : Date) (key : String) : Option String :=
  (db.get now key).map Timed.value

/-- Whether `PX` takes a time to live: it is positive, and the deadline fits the
64 bits of Redis. -/
def acceptsPx (now : Date) (ttlMs : Int) : Bool := 0 < ttlMs && now + ttlMs < 2 ^ 63

/-- `SET` with `PX`, or `none` for the error that aborts a script. -/
def redisSet (db : RedisDb) (now : Date) (key value : String) (ttlMs : Int) : Option RedisDb :=
  if acceptsPx now ttlMs then some (db.set key value (now + ttlMs)) else none

/-- `CLAIM_SCRIPT`: the value that is there, or the database with the new one. -/
def claimScript (db : RedisDb) (now : Date) (key lease : String) (ttlMs : Int) :
    String ⊕ Option RedisDb :=
  match redisGet db now key with
  | some current => .inl current
  | none => .inr (redisSet db now key lease ttlMs)

/-- `COMPLETE_SCRIPT`. -/
def completeScript (db : RedisDb) (now : Date) (key lease record : String) (ttlMs : Int) :
    Option (RedisDb × Nat) :=
  if redisGet db now key ≠ some lease then some (db, 0)
  else (redisSet db now key record ttlMs).map fun db => (db, 1)

/-- `RELEASE_SCRIPT`. -/
def releaseScript (db : RedisDb) (now : Date) (key lease : String) : RedisDb :=
  if redisGet db now key = some lease then db.del key else db

/-- `RedisIdempotencyStore`. -/
def RedisIdempotencyStore : IdempotencyStore B where
  State := RedisDb
  empty := fun _ => none
  call db now
    | .claim key fingerprint ttlMs uuid =>
        let lease := inFlightValue fingerprint uuid
        match claimScript db now key lease ttlMs with
        | .inl current =>
            match Json.parse current with
            | some value => (db, .found (toRecord value))
            | none => (db, .rejected)
        | .inr (some db) => (db, .claimed lease)
        | .inr none => (db, .rejected)
    | .complete key lease fingerprint response ttlMs =>
        let record : IdempotencyRecord B := .completed fingerprint response
        match completeScript db now key lease (Json.stringify record.toJson) ttlMs with
        | some (db, stored) => (db, .completed (stored = 1))
        | none => (db, .rejected)
    | .release key lease => (releaseScript db now key lease, .released)

/-! ## Memory -/

/-- `StoredInFlight | IdempotencyRecord`: the parsed text of a lease, or a
record. -/
inductive MemoryValue (B : Bodies) where
  | parsed (value : Json)
  | record (record : IdempotencyRecord B)

structure MemoryEntry (B : Bodies) where
  value : MemoryValue B
  lease : Option String
  expiresAt : Date

/-- The `records` of a process. -/
abbrev MemoryRecords (B : Bodies) := String → Option (MemoryEntry B)

/-- `current`: an entry that has run out is deleted when it is met. -/
def MemoryRecords.current (records : MemoryRecords B) (now : Date) (key : String) :
    MemoryRecords B × Option (MemoryEntry B) :=
  match records key with
  | some entry =>
      if now > entry.expiresAt then (Function.update records key none, none)
      else (records, some entry)
  | none => (records, none)

/-- `toRecord`, of what is kept. -/
def MemoryValue.toRecord : MemoryValue B → Json
  | .parsed value => Texts.toRecord value
  | .record kept => kept.toJson

/-- `MemoryIdempotencyStore`. -/
def MemoryIdempotencyStore : IdempotencyStore B where
  State := MemoryRecords B
  empty := fun _ => none
  call records now
    | .claim key fingerprint ttlMs uuid =>
        match records.current now key with
        | (records, some existing) => (records, .found existing.value.toRecord)
        | (records, none) =>
            let lease := inFlightValue fingerprint uuid
            match Json.parse lease with
            | some value =>
                (Function.update records key (some ⟨.parsed value, some lease, now + ttlMs⟩),
                  .claimed lease)
            | none => (records, .rejected)
    | .complete key lease fingerprint response ttlMs =>
        let (records, entry) := records.current now key
        if entry.bind MemoryEntry.lease ≠ some lease then (records, .completed false)
        else
          (Function.update records key
            (some ⟨.record (.completed fingerprint response), none, now + ttlMs⟩),
            .completed true)
    | .release key lease =>
        let (records, entry) := records.current now key
        if entry.bind MemoryEntry.lease = some lease then
          (Function.update records key none, .released)
        else (records, .released)

/-! ## The texts of records -/

/-- What a claim writes is a sound value, whatever its texts are. -/
theorem isSound_storedInFlight (fingerprint uuid : String) :
    (storedInFlight fingerprint uuid).isSound = true := by
  simp [storedInFlight, Json.isSound, Json.areSoundMembers]

theorem isSound_response (response : StoredResponse B) : response.toJson.isSound = true := by
  have hstatus := response.statusCode.sound
  cases hbody : B.toJson response.body with
  | none => simp [StoredResponse.toJson, hbody, Json.isSound, Json.areSoundMembers, hstatus]
  | some body =>
      have hsound := B.sound _ _ hbody
      simp [StoredResponse.toJson, hbody, Json.isSound, Json.areSoundMembers, hstatus, hsound]

theorem isSound_toJson (record : IdempotencyRecord B) : record.toJson.isSound = true := by
  cases record with
  | inFlight fingerprint =>
      simp [IdempotencyRecord.toJson, Json.isSound, Json.areSoundMembers]
  | completed fingerprint response =>
      have hresponse := isSound_response response
      simp [IdempotencyRecord.toJson, Json.isSound, Json.areSoundMembers, hresponse]

theorem parse_inFlightValue (fingerprint uuid : String) :
    Json.parse (inFlightValue fingerprint uuid) = some (storedInFlight fingerprint uuid) :=
  Json.parse_stringify (isSound_storedInFlight fingerprint uuid)

/-- A record that is completed is given back as it is. -/
theorem toRecord_completed (fingerprint : String) (response : StoredResponse B) :
    toRecord (IdempotencyRecord.completed fingerprint response).toJson =
      (IdempotencyRecord.completed fingerprint response).toJson := rfl

end Vynor.Idempotency.Texts
