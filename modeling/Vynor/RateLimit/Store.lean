import Vynor.Idempotency.Store
import Vynor.Lib.FixedWindow
import Vynor.Lib.OrderedMap
import Mathlib.Data.Finset.Card

/-!
# Rate limits

The two stores of `rate-limit-store.ts`.  Redis keeps one counter for a key,
which runs out at the end of its window; the memory store keeps all counters in
one map, never removes one, and clears the map when it has more than 10,000.

The identity is hashed with SHA-256, which is a parameter here: what the stores
need of it is in `Digest`.
-/

namespace Vynor.RateLimit

open Lib (OrderedMap.set OrderedMap.get?)
open Idempotency (REDIS_KEY_PREFIX)

/-! ## Limits and keys -/

/-- `limit` and `windowMs` of a scope. -/
structure Limit where
  limit : Nat
  windowMs : Nat
  limit_pos : 1 ≤ limit
  windowMs_pos : 1 ≤ windowMs

/-- `SESSION_LIMIT`, in the scope `webchat-session`. -/
def SESSION_LIMIT : Limit := ⟨20, 60000, by decide, by decide⟩

/-- `MESSAGE_LIMIT`, in the scope `webchat-message`. -/
def MESSAGE_LIMIT : Limit := ⟨30, 60000, by decide, by decide⟩

/-- What is hit: a scope, and an identity in it. -/
structure Subject where
  scope : String
  identity : String
deriving DecidableEq, Repr

/-- One call of `hit`, with the time on the clock. -/
structure Hit where
  subject : Subject
  now : Date
deriving DecidableEq, Repr

/-- `rateLimitKey`, where `sha256` is the hexadecimal digest of an identity. -/
def rateLimitKey (sha256 : String → String) (subject : Subject) : String :=
  REDIS_KEY_PREFIX ++ "rl:" ++ subject.scope ++ ":" ++ sha256 subject.identity

/-- A digest as SHA-256 is for some subjects: 64 characters, and no collision
among their identities. -/
structure Digest (subjects : Finset Subject) where
  sha256 : String → String
  length_sha256 : ∀ identity, (sha256 identity).length = 64
  apart : ∀ s ∈ subjects, ∀ s' ∈ subjects, sha256 s.identity = sha256 s'.identity →
    s.identity = s'.identity

/-! ## Stores -/

/-- `RateLimitStore`.  `hit` answers whether the hit is accepted. -/
structure RateLimitStore where
  State : Type
  empty : State
  hit : State → Subject → Limit → Date → State × Bool

/-- A counter in Redis, with the time it runs out at. -/
structure RedisCounter where
  count : Nat
  expiresAt : Option Date
deriving DecidableEq, Repr

abbrev RedisCounters := String → Option RedisCounter

/-- The counter of a key, unless it has run out. -/
def RedisCounters.get (db : RedisCounters) (now : Date) (key : String) : Option RedisCounter :=
  (db key).filter fun c => c.expiresAt.all fun t => now ≤ t

/-- `INCR`, which keeps the time a counter runs out at. -/
def RedisCounters.incr (db : RedisCounters) (now : Date) (key : String) : RedisCounter :=
  match db.get now key with
  | some c => ⟨c.count + 1, c.expiresAt⟩
  | none => ⟨1, none⟩

/-- `PTTL` of a key that is there: `-1` without a time to run out at. -/
def RedisCounter.pttl (c : RedisCounter) (now : Date) : Int :=
  match c.expiresAt with
  | some t => t - now
  | none => -1

/-- `HIT_SCRIPT`, with the count it returns. -/
def hitScript (db : RedisCounters) (now : Date) (key : String) (windowMs : Nat) :
    RedisCounters × Nat :=
  let counter := db.incr now key
  let counter :=
    if counter.count = 1 ∨ counter.pttl now < 0 then ⟨counter.count, some (now + windowMs)⟩
    else counter
  (Function.update db key (some counter), counter.count)

def RedisRateLimitStore (sha256 : String → String) : RateLimitStore where
  State := RedisCounters
  empty := fun _ => none
  hit db subject limit now :=
    let (db, count) := hitScript db now (rateLimitKey sha256 subject) limit.windowMs
    (db, count ≤ limit.limit)

/-- A counter of the memory store. -/
structure MemoryCounter where
  count : Nat
  resetAt : Date
deriving DecidableEq, Repr

/-- The map `hits`. -/
abbrev MemoryCounters := List (String × MemoryCounter)

/-- The entry of a key, unless its window is over. -/
def MemoryCounters.current (hits : MemoryCounters) (now : Date) (key : String) :
    Option MemoryCounter :=
  (OrderedMap.get? hits key).filter fun entry => !(entry.resetAt < now)

def MemoryRateLimitStore (sha256 : String → String) : RateLimitStore where
  State := MemoryCounters
  empty := []
  hit hits subject limit now :=
    let key := rateLimitKey sha256 subject
    match MemoryCounters.current hits now key with
    | none =>
        let hits := OrderedMap.set hits key ⟨1, now + limit.windowMs⟩
        (if hits.length > 10000 then [] else hits, true)
    | some entry =>
        let entry := { entry with count := entry.count + 1 }
        (OrderedMap.set hits key entry, entry.count ≤ limit.limit)

/-! ## Runs -/

/-- The hits of a run with their answers, from a state on. -/
def RateLimitStore.answers (S : RateLimitStore) (limits : String → Limit) :
    S.State → List Hit → List (Hit × Bool)
  | _, [] => []
  | s, h :: hits =>
      (h, (S.hit s h.subject (limits h.subject.scope) h.now).2) ::
        S.answers limits (S.hit s h.subject (limits h.subject.scope) h.now).1 hits

/-- The state after a run. -/
def RateLimitStore.after (S : RateLimitStore) (limits : String → Limit) :
    S.State → List Hit → S.State
  | s, [] => s
  | s, h :: hits => S.after limits (S.hit s h.subject (limits h.subject.scope) h.now).1 hits

/-- The hits of one subject. -/
def ownHits (subject : Subject) (answers : List (Hit × Bool)) : List (Hit × Bool) :=
  answers.filter fun e => e.1.subject = subject

/-- In every window of every subject, exactly the first hits up to the limit are
accepted. -/
def RateLimitStore.KeepsLimit (S : RateLimitStore) (limits : String → Limit) (hits : List Hit) :
    Prop :=
  ∀ subject, Lib.FixedWindow.Limited (limits subject.scope).limit
    ((limits subject.scope).windowMs : Int) (fun e : Hit × Bool => e.1.now) Prod.snd
    (ownHits subject (S.answers limits S.empty hits))

end Vynor.RateLimit
