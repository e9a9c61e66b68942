import Mathlib.Data.Int.Order.Basic
import Vynor.Basic
import Vynor.Lib.Expiring

/-!
# Idempotency records

The two stores of `idempotency-store.ts`.  The Redis one keeps JSON texts and
compares them as texts, the memory one keeps objects with the text of the lease
beside them.  Here both keep the objects: `JSON.stringify` writes two of them
alike only if they are equal.

A call reads the clock at `now` and, where it writes, again at `later`.  The
three scripts of Redis run at one moment, `later`.

`Leases` is what the interceptor relies on: whatever a store keeps inside, its
calls act on one expiring map of leases and responses, up to what has run out.
Both stores do so.
-/

namespace Vynor.Idempotency

open Lib (Expiring Timed)

variable {β : Type}

/-! ## Records -/

structure StoredResponse (β : Type) where
  statusCode : Nat
  body : β
deriving DecidableEq

inductive IdempotencyRecord (β : Type) where
  | inFlight (fingerprint : String)
  | completed (fingerprint : String) (response : StoredResponse β)
deriving DecidableEq

def IdempotencyRecord.fingerprint : IdempotencyRecord β → String
  | .inFlight fingerprint => fingerprint
  | .completed fingerprint _ => fingerprint

/-- The value a claim writes.  Its text is the lease. -/
structure StoredInFlight where
  fingerprint : String
  lease : String
deriving DecidableEq

/-- What is kept under a key: `StoredInFlight | IdempotencyRecord`. -/
inductive Stored (β : Type) where
  | inFlight (value : StoredInFlight)
  | completed (fingerprint : String) (response : StoredResponse β)
deriving DecidableEq

def toRecord : Stored β → IdempotencyRecord β
  | .inFlight value => .inFlight value.fingerprint
  | .completed fingerprint response => .completed fingerprint response

inductive IdempotencyClaim (β : Type) where
  | claimed (lease : StoredInFlight)
  | found (record : IdempotencyRecord β)
deriving DecidableEq

/-- The value of a claim, with the UUID that `randomUUID` gave. -/
def inFlightValue (fingerprint uuid : String) : StoredInFlight := ⟨fingerprint, uuid⟩

def REDIS_KEY_PREFIX : String := "vynor:"

/-- The key of a record. -/
def idempotencyRecordKey (sha256 : String → String)
    (workspaceId method path idempotencyKey : String) : String :=
  let scope := sha256 (method ++ " " ++ path ++ " " ++ idempotencyKey)
  REDIS_KEY_PREFIX ++ "idem:" ++ workspaceId ++ ":" ++ scope

/-- The abstract class the interceptor is given. -/
structure IdempotencyStore (β : Type) where
  State : Type
  claim : State → (now later : Date) → (key fingerprint : String) → (ttlMs : Date) →
    (uuid : String) → State × IdempotencyClaim β
  complete : State → (now later : Date) → (key : String) → (lease : StoredInFlight) →
    (fingerprint : String) → (response : StoredResponse β) → (ttlMs : Date) → State × Bool
  release : State → (now : Date) → (key : String) → (lease : StoredInFlight) → State

/-! ## Redis -/

/-- The keys of a Redis database. -/
abbrev RedisDb (β : Type) := Expiring Date String (Stored β)

/-- `GET`. -/
def redisGet (db : RedisDb β) (now : Date) (key : String) : Option (Stored β) :=
  (db.get now key).map Timed.value

/-- `CLAIM_SCRIPT`. -/
def claimScript (db : RedisDb β) (now : Date) (key : String) (lease : StoredInFlight)
    (ttlMs : Date) : RedisDb β × Option (Stored β) :=
  match redisGet db now key with
  | some current => (db, some current)
  | none => (db.set key (.inFlight lease) (now + ttlMs), none)

/-- `COMPLETE_SCRIPT`. -/
def completeScript [DecidableEq β] (db : RedisDb β) (now : Date) (key : String) (lease : StoredInFlight)
    (record : Stored β) (ttlMs : Date) : RedisDb β × Nat :=
  if redisGet db now key ≠ some (.inFlight lease) then (db, 0)
  else (db.set key record (now + ttlMs), 1)

/-- `RELEASE_SCRIPT`. -/
def releaseScript [DecidableEq β] (db : RedisDb β) (now : Date) (key : String)
    (lease : StoredInFlight) : RedisDb β :=
  if redisGet db now key = some (.inFlight lease) then db.del key else db

def RedisIdempotencyStore [DecidableEq β] : IdempotencyStore β where
  State := RedisDb β
  claim db _ later key fingerprint ttlMs uuid :=
    let lease := inFlightValue fingerprint uuid
    match claimScript db later key lease ttlMs with
    | (db, none) => (db, .claimed lease)
    | (db, some current) => (db, .found (toRecord current))
  complete db _ later key lease fingerprint response ttlMs :=
    let stored := completeScript db later key lease (.completed fingerprint response) ttlMs
    (stored.1, stored.2 = 1)
  release db now key lease := releaseScript db now key lease

/-! ## Memory -/

/-- The lease that is kept beside a value. -/
def Stored.lease? : Stored β → Option StoredInFlight
  | .inFlight value => some value
  | .completed _ _ => none

/-- An entry of the map: a value in flight comes with its lease, a completed one
without. -/
structure MemoryEntry (β : Type) where
  value : Stored β
  lease : Option StoredInFlight
  expiresAt : Date
  lease_eq : lease = value.lease?

/-- The `records` of a process. -/
abbrev MemoryRecords (β : Type) := String → Option (MemoryEntry β)

/-- `current`: an entry that has run out is deleted when it is met. -/
def MemoryRecords.current (records : MemoryRecords β) (now : Date) (key : String) :
    MemoryRecords β × Option (MemoryEntry β) :=
  match records key with
  | some entry =>
      if now > entry.expiresAt then (Function.update records key none, none)
      else (records, some entry)
  | none => (records, none)

def MemoryIdempotencyStore : IdempotencyStore β where
  State := MemoryRecords β
  claim records now later key fingerprint ttlMs uuid :=
    match records.current now key with
    | (records, some existing) => (records, .found (toRecord existing.value))
    | (records, none) =>
        let lease := inFlightValue fingerprint uuid
        (Function.update records key (some ⟨.inFlight lease, some lease, later + ttlMs, rfl⟩),
          .claimed lease)
  complete records now later key lease fingerprint response ttlMs :=
    let (records, entry) := records.current now key
    if entry.bind MemoryEntry.lease ≠ some lease then (records, false)
    else
      (Function.update records key
        (some ⟨.completed fingerprint response, none, later + ttlMs, rfl⟩), true)
  release records now key lease :=
    let (records, entry) := records.current now key
    if entry.bind MemoryEntry.lease = some lease then Function.update records key none else records

/-- The stores `SHARED_STATE_STORE` can name. -/
inductive SharedStateStore where
  | redis
  | memory
deriving DecidableEq

def SharedStateStore.store [DecidableEq β] : SharedStateStore → IdempotencyStore β
  | .redis => RedisIdempotencyStore
  | .memory => MemoryIdempotencyStore

/-! ## One map of leases -/

/-- What a claim does: it finds a record, or it takes the key. -/
inductive ClaimEffect (m m' : RedisDb β) (now later : Date) (key : String)
    (lease : StoredInFlight) (expiresAt : Date) : IdempotencyClaim β → Prop where
  | found {t : Date} {e : Timed Date (Stored β)} (hfrom : now ≤ t) (hto : t ≤ later)
      (hget : m.get t key = some e) (hmap : m'.AgreeFrom later m) :
      ClaimEffect m m' now later key lease expiresAt (.found (toRecord e.value))
  | taken {t : Date} (hfrom : now ≤ t) (hto : t ≤ later) (hget : m.get t key = none)
      (hmap : m'.AgreeFrom later (m.set key (.inFlight lease) expiresAt)) :
      ClaimEffect m m' now later key lease expiresAt (.claimed lease)

/-- What a completion does: it replaces the record of its lease, or nothing. -/
inductive CompleteEffect (m m' : RedisDb β) (now later : Date) (key : String)
    (lease : StoredInFlight) (record : Stored β) (expiresAt : Date) : Bool → Prop where
  | stored {t : Date} {e : Timed Date (Stored β)} (hfrom : now ≤ t) (hto : t ≤ later)
      (hget : m.get t key = some e) (hlease : e.value = .inFlight lease)
      (hmap : m'.AgreeFrom later (m.set key record expiresAt)) :
      CompleteEffect m m' now later key lease record expiresAt true
  | missed {t : Date} (hfrom : now ≤ t) (hto : t ≤ later)
      (hlease : ∀ e, m.get t key = some e → e.value ≠ .inFlight lease)
      (hmap : m'.AgreeFrom later m) :
      CompleteEffect m m' now later key lease record expiresAt false

/-- What a release does: it removes the record of its lease, or nothing. -/
inductive ReleaseEffect (m m' : RedisDb β) (now : Date) (key : String)
    (lease : StoredInFlight) : Prop where
  | freed {e : Timed Date (Stored β)} (hget : m.get now key = some e)
      (hlease : e.value = .inFlight lease) (hmap : m'.AgreeFrom now (m.del key)) :
      ReleaseEffect m m' now key lease
  | missed (hlease : ∀ e, m.get now key = some e → e.value ≠ .inFlight lease)
      (hmap : m'.AgreeFrom now m) : ReleaseEffect m m' now key lease

/-- A store whose calls act on one expiring map. -/
structure Leases (S : IdempotencyStore β) where
  entries : S.State → RedisDb β
  claim : ∀ (s : S.State) {now later : Date} (key fingerprint : String) (ttlMs : Date)
    (uuid : String), now ≤ later →
    ClaimEffect (entries s) (entries (S.claim s now later key fingerprint ttlMs uuid).1) now later
      key (inFlightValue fingerprint uuid) (later + ttlMs)
      (S.claim s now later key fingerprint ttlMs uuid).2
  complete : ∀ (s : S.State) {now later : Date} (key : String) (lease : StoredInFlight)
    (fingerprint : String) (response : StoredResponse β) (ttlMs : Date), now ≤ later →
    CompleteEffect (entries s)
      (entries (S.complete s now later key lease fingerprint response ttlMs).1) now later key lease
      (.completed fingerprint response) (later + ttlMs)
      (S.complete s now later key lease fingerprint response ttlMs).2
  release : ∀ (s : S.State) (now : Date) (key : String) (lease : StoredInFlight),
    ReleaseEffect (entries s) (entries (S.release s now key lease)) now key lease

/-! ### Redis -/

theorem redisGet_eq_some {db : RedisDb β} {now : Date} {key : String} {v : Stored β} :
    redisGet db now key = some v ↔ ∃ e, db.get now key = some e ∧ e.value = v := by
  rw [redisGet, Option.map_eq_some_iff]

theorem redisGet_eq_none {db : RedisDb β} {now : Date} {key : String} :
    redisGet db now key = none ↔ db.get now key = none := by
  rw [redisGet, Option.map_eq_none_iff]

section Redis

variable [DecidableEq β]

theorem redis_claim (db : RedisDb β) {now later : Date} (key fingerprint : String) (ttlMs : Date)
    (uuid : String) (h : now ≤ later) :
    ClaimEffect db (RedisIdempotencyStore.claim db now later key fingerprint ttlMs uuid).1 now
      later key (inFlightValue fingerprint uuid) (later + ttlMs)
      (RedisIdempotencyStore.claim db now later key fingerprint ttlMs uuid).2 := by
  cases hget : redisGet db later key with
  | none =>
      simp only [RedisIdempotencyStore, claimScript, hget]
      exact .taken h le_rfl (redisGet_eq_none.mp hget) (Expiring.AgreeFrom.refl _ _)
  | some current =>
      simp only [RedisIdempotencyStore, claimScript, hget]
      obtain ⟨e, he, rfl⟩ := redisGet_eq_some.mp hget
      exact .found h le_rfl he (Expiring.AgreeFrom.refl _ _)

theorem redis_complete (db : RedisDb β) {now later : Date} (key : String) (lease : StoredInFlight)
    (fingerprint : String) (response : StoredResponse β) (ttlMs : Date) (h : now ≤ later) :
    CompleteEffect db
      (RedisIdempotencyStore.complete db now later key lease fingerprint response ttlMs).1 now later
      key lease (.completed fingerprint response) (later + ttlMs)
      (RedisIdempotencyStore.complete db now later key lease fingerprint response ttlMs).2 := by
  by_cases hget : redisGet db later key = some (.inFlight lease)
  · simp only [RedisIdempotencyStore, completeScript, hget, ne_eq, not_true_eq_false, if_false,
      decide_true]
    obtain ⟨e, he, hvalue⟩ := redisGet_eq_some.mp hget
    exact .stored h le_rfl he hvalue (Expiring.AgreeFrom.refl _ _)
  · simp only [RedisIdempotencyStore, completeScript, ne_eq, hget, not_false_eq_true, if_true]
    refine .missed h le_rfl (fun e he hvalue => ?_) (Expiring.AgreeFrom.refl _ _)
    exact hget (redisGet_eq_some.mpr ⟨e, he, hvalue⟩)

theorem redis_release (db : RedisDb β) (now : Date) (key : String) (lease : StoredInFlight) :
    ReleaseEffect db (RedisIdempotencyStore.release db now key lease) now key lease := by
  by_cases hget : redisGet db now key = some (.inFlight lease)
  · simp only [RedisIdempotencyStore, releaseScript, hget, if_true]
    obtain ⟨e, he, hvalue⟩ := redisGet_eq_some.mp hget
    exact .freed he hvalue (Expiring.AgreeFrom.refl _ _)
  · simp only [RedisIdempotencyStore, releaseScript, hget, if_false]
    refine .missed (fun e he hvalue => ?_) (Expiring.AgreeFrom.refl _ _)
    exact hget (redisGet_eq_some.mpr ⟨e, he, hvalue⟩)

def redisLeases : Leases (RedisIdempotencyStore : IdempotencyStore β) where
  entries db := db
  claim db _ _ key fingerprint ttlMs uuid h := redis_claim db key fingerprint ttlMs uuid h
  complete db _ _ key lease fingerprint response ttlMs h :=
    redis_complete db key lease fingerprint response ttlMs h
  release db now key lease := redis_release db now key lease

end Redis

/-! ### Memory -/

/-- The entry without the copy of its lease. -/
def MemoryEntry.timed (entry : MemoryEntry β) : Timed Date (Stored β) :=
  ⟨entry.value, entry.expiresAt⟩

/-- The records as an expiring map. -/
def MemoryRecords.entries (records : MemoryRecords β) : RedisDb β :=
  fun key => (records key).map MemoryEntry.timed

theorem MemoryRecords.entries_update (records : MemoryRecords β) (key : String)
    (entry : Option (MemoryEntry β)) :
    MemoryRecords.entries (Function.update records key entry) =
      Function.update records.entries key (entry.map MemoryEntry.timed) := by
  funext key'
  rw [MemoryRecords.entries, Function.apply_update (fun _ => Option.map MemoryEntry.timed)]
  rfl

/-- `current` finds what an expiring map finds, and deletes nothing that could
still be found. -/
theorem MemoryRecords.current_spec (records : MemoryRecords β) (now : Date) (key : String) :
    ((records.current now key).2.map MemoryEntry.timed = records.entries.get now key) ∧
      (records.current now key).1.entries.AgreeFrom now records.entries := by
  cases hentry : records key with
  | none =>
      simp only [current, hentry]
      refine ⟨?_, Expiring.AgreeFrom.refl _ _⟩
      rw [Expiring.get, entries, hentry]
      rfl
  | some entry =>
      by_cases hlate : now > entry.expiresAt
      · have hkept : records.entries key = some entry.timed := by
          rw [entries, hentry, Option.map_some]
        have hget : records.entries.get now key = none := Expiring.get_expired hkept hlate
        simp only [current, hentry, hlate, if_true]
        refine ⟨hget.symm, ?_⟩
        rw [entries_update]
        exact Expiring.agreeFrom_del hget
      · simp only [current, hentry, hlate, if_false]
        refine ⟨?_, Expiring.AgreeFrom.refl _ _⟩
        refine (Expiring.get_eq_some.mpr ⟨?_, Int.not_lt.mp hlate⟩).symm
        rw [entries, hentry, Option.map_some]

/-- The lease beside an entry is that of its value. -/
theorem MemoryEntry.lease_eq_some {entry : MemoryEntry β} {lease : StoredInFlight} :
    entry.lease = some lease ↔ entry.value = .inFlight lease := by
  rw [entry.lease_eq]
  cases entry.value with
  | inFlight value => simp [Stored.lease?]
  | completed fingerprint response => simp [Stored.lease?]

theorem memory_claim (records : MemoryRecords β) {now later : Date} (key fingerprint : String)
    (ttlMs : Date) (uuid : String) (h : now ≤ later) :
    ClaimEffect records.entries
      (MemoryRecords.entries
        (MemoryIdempotencyStore.claim records now later key fingerprint ttlMs uuid).1)
      now later key (inFlightValue fingerprint uuid) (later + ttlMs)
      (MemoryIdempotencyStore.claim records now later key fingerprint ttlMs uuid).2 := by
  obtain ⟨hget, hagree⟩ := records.current_spec now key
  rcases hcurrent : records.current now key with ⟨records', existing⟩
  rw [hcurrent] at hget hagree
  cases existing with
  | none =>
      simp only [MemoryIdempotencyStore, hcurrent]
      refine .taken le_rfl h hget.symm ?_
      rw [MemoryRecords.entries_update]
      exact (hagree.later h).set key _ _
  | some entry =>
      simp only [MemoryIdempotencyStore, hcurrent]
      exact .found (e := entry.timed) le_rfl h hget.symm (hagree.later h)

/-- Whether the entry that `current` finds carries the lease. -/
theorem bind_lease_eq_some {found : Option (MemoryEntry β)} {lease : StoredInFlight} :
    found.bind MemoryEntry.lease = some lease ↔
      ∃ entry, found = some entry ∧ entry.value = .inFlight lease := by
  rw [Option.bind_eq_some_iff]
  simp only [MemoryEntry.lease_eq_some]

theorem memory_complete (records : MemoryRecords β) {now later : Date} (key : String)
    (lease : StoredInFlight) (fingerprint : String) (response : StoredResponse β) (ttlMs : Date)
    (h : now ≤ later) :
    CompleteEffect records.entries
      (MemoryRecords.entries
        (MemoryIdempotencyStore.complete records now later key lease fingerprint response ttlMs).1)
      now later key lease (.completed fingerprint response) (later + ttlMs)
      (MemoryIdempotencyStore.complete records now later key lease fingerprint response ttlMs).2 := by
  obtain ⟨hget, hagree⟩ := records.current_spec now key
  rcases hcurrent : records.current now key with ⟨records', found⟩
  rw [hcurrent] at hget hagree
  by_cases howned : found.bind MemoryEntry.lease = some lease
  · simp only [MemoryIdempotencyStore, hcurrent, ne_eq, howned, not_true_eq_false, if_false]
    obtain ⟨entry, rfl, hvalue⟩ := bind_lease_eq_some.mp howned
    refine .stored (e := entry.timed) le_rfl h hget.symm hvalue ?_
    rw [MemoryRecords.entries_update]
    exact (hagree.later h).set key _ _
  · simp only [MemoryIdempotencyStore, hcurrent, ne_eq, howned, not_false_eq_true, if_true]
    refine .missed le_rfl h (fun e he hvalue => ?_) (hagree.later h)
    obtain ⟨entry, hentry, rfl⟩ := Option.map_eq_some_iff.mp (hget.trans he)
    exact howned (bind_lease_eq_some.mpr ⟨entry, hentry, hvalue⟩)

theorem memory_release (records : MemoryRecords β) (now : Date) (key : String)
    (lease : StoredInFlight) :
    ReleaseEffect records.entries
      (MemoryRecords.entries (MemoryIdempotencyStore.release records now key lease)) now key
      lease := by
  obtain ⟨hget, hagree⟩ := records.current_spec now key
  rcases hcurrent : records.current now key with ⟨records', found⟩
  rw [hcurrent] at hget hagree
  by_cases howned : found.bind MemoryEntry.lease = some lease
  · simp only [MemoryIdempotencyStore, hcurrent, howned, if_true]
    obtain ⟨entry, rfl, hvalue⟩ := bind_lease_eq_some.mp howned
    refine .freed (e := entry.timed) hget.symm hvalue ?_
    rw [MemoryRecords.entries_update]
    exact hagree.del key
  · simp only [MemoryIdempotencyStore, hcurrent, howned, if_false]
    refine .missed (fun e he hvalue => ?_) hagree
    obtain ⟨entry, hentry, rfl⟩ := Option.map_eq_some_iff.mp (hget.trans he)
    exact howned (bind_lease_eq_some.mpr ⟨entry, hentry, hvalue⟩)

def memoryLeases : Leases (MemoryIdempotencyStore : IdempotencyStore β) where
  entries := MemoryRecords.entries
  claim records _ _ key fingerprint ttlMs uuid h :=
    memory_claim records key fingerprint ttlMs uuid h
  complete records _ _ key lease fingerprint response ttlMs h :=
    memory_complete records key lease fingerprint response ttlMs h
  release records now key lease := memory_release records now key lease

/-- Either store keeps leases. -/
def SharedStateStore.leases [DecidableEq β] : (kind : SharedStateStore) →
    Leases (kind.store : IdempotencyStore β)
  | .redis => redisLeases
  | .memory => memoryLeases

end Vynor.Idempotency
