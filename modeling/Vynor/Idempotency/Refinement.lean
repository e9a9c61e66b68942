import Vynor.Idempotency.Texts

/-!
# The memory store refines the Redis one

Both stores keep one expiring map from keys to the texts of records: the memory
store has it in objects (`MemoryRecords.texts`).  `Agrees` relates their states
from a moment on, each call keeps it and ends alike on both sides
(`agrees_call`), and so do all calls in the order of their times.

Redis takes any text for a lease, so the text of a completed record is the lease
of that record there, and it takes only some times to live.  A call is
`Admissible` when it stays clear of both.
-/

namespace Vynor.Idempotency.Texts

open Lib (Expiring Timed Json)

variable {B : Bodies}

/-- The text of what a memory entry keeps. -/
def MemoryValue.text : MemoryValue B → String
  | .parsed value => Json.stringify value
  | .record kept => Json.stringify kept.toJson

/-- How an entry comes about: a claim writes a lease and its parsed text, a
completion writes a record and no lease. -/
inductive Kept : MemoryEntry B → Prop where
  | claimed (fingerprint uuid : String) (expiresAt : Date) :
      Kept ⟨.parsed (storedInFlight fingerprint uuid), some (inFlightValue fingerprint uuid),
        expiresAt⟩
  | completed (fingerprint : String) (response : StoredResponse B) (expiresAt : Date) :
      Kept ⟨.record (.completed fingerprint response), none, expiresAt⟩

def MemoryEntry.timed (entry : MemoryEntry B) : Timed Date String :=
  ⟨entry.value.text, entry.expiresAt⟩

/-- The records as an expiring map of texts. -/
def MemoryRecords.texts (records : MemoryRecords B) : RedisDb :=
  fun key => (records key).map MemoryEntry.timed

/-- The states of the two stores from a moment on. -/
structure Agrees (now : Date) (records : MemoryRecords B) (db : RedisDb) : Prop where
  kept : ∀ key entry, records key = some entry → Kept entry
  texts : records.texts.AgreeFrom now db

/-- A lease that is no text of a completed record. -/
def IsNoRecord (B : Bodies) (lease : String) : Prop :=
  ∀ (fingerprint : String) (response : StoredResponse B),
    lease ≠ Json.stringify (IdempotencyRecord.completed fingerprint response).toJson

/-- A call with a time to live that Redis takes, and a lease that is no text of a
completed record. -/
def Admissible (now : Date) : Call B → Prop
  | .claim _ _ ttlMs _ => acceptsPx now ttlMs = true
  | .complete _ lease _ _ ttlMs => acceptsPx now ttlMs = true ∧ IsNoRecord B lease
  | .release _ lease => IsNoRecord B lease

/-! ## Entries -/

variable {now : Date} {records : MemoryRecords B} {db : RedisDb}

theorem Agrees.later (h : Agrees now records db) {now' : Date} (hle : now ≤ now') :
    Agrees now' records db :=
  ⟨h.kept, h.texts.later hle⟩

theorem texts_update (records : MemoryRecords B) (key : String) (entry : Option (MemoryEntry B)) :
    MemoryRecords.texts (Function.update records key entry) =
      Function.update records.texts key (entry.map MemoryEntry.timed) := by
  funext key'
  rw [MemoryRecords.texts, Function.apply_update (fun _ => Option.map MemoryEntry.timed)]
  rfl

theorem kept_update (h : ∀ key entry, records key = some entry → Kept entry) {key : String}
    {new : Option (MemoryEntry B)} (hnew : ∀ entry, new = some entry → Kept entry) :
    ∀ key' entry, Function.update records key new key' = some entry → Kept entry := by
  intro key' entry hentry
  by_cases hkey : key' = key
  · rw [hkey, Function.update_self] at hentry
    exact hnew entry hentry
  · rw [Function.update_of_ne hkey] at hentry
    exact h key' entry hentry

/-- Writing an entry and setting its text. -/
theorem Agrees.set (h : Agrees now records db) (key : String) {entry : MemoryEntry B}
    (hentry : Kept entry) :
    Agrees now (Function.update records key (some entry))
      (db.set key entry.value.text entry.expiresAt) := by
  refine ⟨kept_update h.kept fun e he => Option.some.inj he ▸ hentry, ?_⟩
  rw [texts_update]
  exact h.texts.set key _ _

theorem Agrees.del (h : Agrees now records db) (key : String) :
    Agrees now (Function.update records key none) (db.del key) := by
  refine ⟨kept_update h.kept fun e he => (by cases he), ?_⟩
  rw [texts_update]
  exact h.texts.del key

/-- `current` keeps the states in agreement, and finds the entry of the text that
`GET` finds. -/
theorem Agrees.current (h : Agrees now records db) (key : String) :
    Agrees now (records.current now key).1 db ∧
      (∀ entry, (records.current now key).2 = some entry → Kept entry) ∧
      redisGet db now key = (records.current now key).2.map fun entry => entry.value.text := by
  have hget : redisGet db now key = (records.texts.get now key).map Timed.value := by
    rw [redisGet, h.texts now key le_rfl]
  cases hentry : records key with
  | none =>
      simp only [MemoryRecords.current, hentry]
      refine ⟨h, fun e he => (by cases he), ?_⟩
      rw [hget, Expiring.get, MemoryRecords.texts, hentry]
      rfl
  | some entry =>
      have htext : records.texts key = some entry.timed := by
        rw [MemoryRecords.texts, hentry, Option.map_some]
      by_cases hlate : now > entry.expiresAt
      · have hgone : records.texts.get now key = none := Expiring.get_expired htext hlate
        simp only [MemoryRecords.current, hentry, hlate, if_true]
        refine ⟨⟨kept_update h.kept fun e he => (by cases he), ?_⟩, fun e he => (by cases he), ?_⟩
        · rw [texts_update]
          exact (Expiring.agreeFrom_del hgone).trans h.texts
        · rw [hget, hgone]
          rfl
      · simp only [MemoryRecords.current, hentry, hlate, if_false]
        refine ⟨h, fun e he => Option.some.inj he ▸ h.kept key entry hentry, ?_⟩
        rw [hget, Expiring.get_eq_some.mpr ⟨htext, Int.not_lt.mp hlate⟩]
        rfl

/-- Both stores give the same record back. -/
theorem parse_text {entry : MemoryEntry B} (h : Kept entry) :
    ∃ value, Json.parse entry.value.text = some value ∧ toRecord value = entry.value.toRecord := by
  cases h with
  | claimed fingerprint uuid =>
      exact ⟨_, parse_inFlightValue fingerprint uuid, rfl⟩
  | completed fingerprint response =>
      exact ⟨_, Json.parse_stringify (isSound_toJson (.completed fingerprint response)),
        toRecord_completed fingerprint response⟩

/-- Both stores compare a lease alike. -/
theorem lease_eq_iff {entry : MemoryEntry B} (h : Kept entry) {lease : String}
    (hlease : IsNoRecord B lease) : entry.lease = some lease ↔ entry.value.text = lease := by
  cases h with
  | claimed fingerprint uuid => exact Option.some_inj
  | completed fingerprint response =>
      constructor
      · intro h
        cases h
      · intro h
        exact absurd h.symm (hlease fingerprint response)

/-- The lease test of `complete` and `release` on both sides. -/
theorem owns_iff {found : Option (MemoryEntry B)} (h : ∀ entry, found = some entry → Kept entry)
    {lease : String} (hlease : IsNoRecord B lease) :
    found.bind MemoryEntry.lease = some lease ↔
      (found.map fun entry => entry.value.text) = some lease := by
  cases found with
  | none => simp
  | some entry =>
      rw [Option.bind_some, Option.map_some, Option.some_inj]
      exact lease_eq_iff (h entry rfl) hlease

/-! ## Calls -/

theorem redisSet_of_accepts {ttlMs : Int} (h : acceptsPx now ttlMs = true) (db : RedisDb)
    (key value : String) : redisSet db now key value ttlMs = some (db.set key value (now + ttlMs)) := by
  rw [redisSet, h]
  rfl

/-- A call ends alike on both sides and keeps their states in agreement. -/
theorem agrees_call (h : Agrees now records db) {call : Call B} (hcall : Admissible now call) :
    (MemoryIdempotencyStore.call records now call).2 = (RedisIdempotencyStore.call db now call).2 ∧
      Agrees now (MemoryIdempotencyStore.call records now call).1
        (RedisIdempotencyStore.call db now call).1 := by
  cases call with
  | claim key fingerprint ttlMs uuid =>
      obtain ⟨hagrees, hkept, hget⟩ := h.current key
      rcases hcurrent : records.current now key with ⟨records', found⟩
      rw [hcurrent] at hagrees hkept hget
      dsimp only at hagrees hkept hget
      cases found with
      | none =>
          simp only [MemoryIdempotencyStore, RedisIdempotencyStore, hcurrent, claimScript, hget,
            Option.map_none, parse_inFlightValue, redisSet_of_accepts hcall]
          exact ⟨trivial, hagrees.set key (.claimed fingerprint uuid (now + ttlMs))⟩
      | some entry =>
          obtain ⟨value, hparse, hrecord⟩ := parse_text (hkept entry rfl)
          simp only [MemoryIdempotencyStore, RedisIdempotencyStore, hcurrent, claimScript, hget,
            Option.map_some, hparse, hrecord]
          exact ⟨trivial, hagrees⟩
  | complete key lease fingerprint response ttlMs =>
      obtain ⟨haccepts, hlease⟩ := hcall
      obtain ⟨hagrees, hkept, hget⟩ := h.current key
      rcases hcurrent : records.current now key with ⟨records', found⟩
      rw [hcurrent] at hagrees hkept hget
      dsimp only at hagrees hkept hget
      have howns := owns_iff hkept hlease
      by_cases howned : found.bind MemoryEntry.lease = some lease
      · simp only [MemoryIdempotencyStore, RedisIdempotencyStore, hcurrent, completeScript, hget,
          howns.mp howned, howned, ne_eq, not_true_eq_false, if_false,
          redisSet_of_accepts haccepts, Option.map_some]
        exact ⟨by rw [decide_true], hagrees.set key (.completed fingerprint response (now + ttlMs))⟩
      · have hmissed : ¬ (found.map fun entry => entry.value.text) = some lease :=
          fun heq => howned (howns.mpr heq)
        simp only [MemoryIdempotencyStore, RedisIdempotencyStore, hcurrent, completeScript, hget,
          howned, hmissed, ne_eq, not_false_eq_true, if_true]
        exact ⟨rfl, hagrees⟩
  | release key lease =>
      obtain ⟨hagrees, hkept, hget⟩ := h.current key
      rcases hcurrent : records.current now key with ⟨records', found⟩
      rw [hcurrent] at hagrees hkept hget
      dsimp only at hagrees hkept hget
      have howns := owns_iff hkept hcall
      by_cases howned : found.bind MemoryEntry.lease = some lease
      · simp only [MemoryIdempotencyStore, RedisIdempotencyStore, hcurrent, releaseScript, hget,
          howns.mp howned, howned, if_true]
        exact ⟨trivial, hagrees.del key⟩
      · have hmissed : ¬ (found.map fun entry => entry.value.text) = some lease :=
          fun heq => howned (howns.mpr heq)
        simp only [MemoryIdempotencyStore, RedisIdempotencyStore, hcurrent, releaseScript, hget,
          howned, hmissed, if_false]
        exact ⟨trivial, hagrees⟩

/-! ## Sequences of calls -/

/-- Calls in the order of their times. -/
def InOrder (calls : List (Date × Call B)) : Prop := calls.Pairwise fun c c' => c.1 ≤ c'.1

instance (calls : List (Date × Call B)) : Decidable (InOrder calls) :=
  inferInstanceAs (Decidable (calls.Pairwise fun c c' => c.1 ≤ c'.1))

/-- Both stores, both empty at first, end each of the calls alike. -/
def SameOutcomes (calls : List (Date × Call B)) : Prop :=
  MemoryIdempotencyStore.outcomes MemoryIdempotencyStore.empty calls =
    RedisIdempotencyStore.outcomes RedisIdempotencyStore.empty calls

theorem outcomes_of_agrees {calls : List (Date × Call B)} (horder : InOrder calls)
    (hcalls : ∀ c ∈ calls, Admissible c.1 c.2) :
    ∀ {records : MemoryRecords B} {db : RedisDb},
      (∀ c ∈ calls, Agrees c.1 records db) →
      MemoryIdempotencyStore.outcomes records calls = RedisIdempotencyStore.outcomes db calls := by
  induction calls with
  | nil =>
      intro records db _
      rfl
  | cons c calls ih =>
      intro records db hagrees
      obtain ⟨hfirst, horder⟩ := List.pairwise_cons.mp horder
      obtain ⟨hc, hcalls⟩ := List.forall_mem_cons.mp hcalls
      obtain ⟨hsame, hafter⟩ := agrees_call (hagrees c List.mem_cons_self) hc
      have hrest := ih horder hcalls fun c' hc' => hafter.later (hfirst c' hc')
      exact congrArg₂ List.cons hsame hrest

/-- The memory store ends admissible calls as the Redis store does. -/
theorem sameOutcomes_of_admissible {calls : List (Date × Call B)} (horder : InOrder calls)
    (hcalls : ∀ c ∈ calls, Admissible c.1 c.2) : SameOutcomes calls :=
  outcomes_of_agrees horder hcalls fun _ _ => ⟨fun _ _ h => (by cases h), fun _ _ _ => rfl⟩

/-! ## Examples -/

/-- Bodies that are texts, or missing. -/
def exampleBodies : Bodies where
  Body := Option String
  toJson body := body.map Json.string
  sound body value h := by
    cases body with
    | none => cases h
    | some text =>
        cases h
        rfl

def exampleResponse : StoredResponse exampleBodies where
  statusCode := ⟨201, by decide +kernel⟩
  body := some "sent"

def exampleRecord : IdempotencyRecord exampleBodies := .completed "f" exampleResponse

/-- A claim whose lease completes the record, and one that finds it. -/
def exampleCalls : List (Date × Call exampleBodies) :=
  [(0, .claim "k" "f" 1000 "u1"),
    (1, .complete "k" (inFlightValue "f" "u1") "f" exampleResponse 5000),
    (2, .claim "k" "f" 1000 "u2")]

/-- The lease of a claim is no text of a completed record. -/
theorem isNoRecord_inFlightValue (fingerprint uuid : String) :
    IsNoRecord B (inFlightValue fingerprint uuid) := by
  intro fingerprint' response heq
  have hvalue := Json.stringify_inj (isSound_storedInFlight fingerprint uuid)
    (isSound_toJson (.completed fingerprint' response)) heq
  simp [storedInFlight, IdempotencyRecord.toJson] at hvalue

theorem sameOutcomes_exampleCalls : SameOutcomes exampleCalls :=
  sameOutcomes_of_admissible (by decide)
    (by
      simp only [exampleCalls, List.forall_mem_cons]
      exact ⟨(by decide : acceptsPx 0 1000 = true),
        ⟨(by decide : acceptsPx 1 5000 = true), isNoRecord_inFlightValue "f" "u1"⟩,
        (by decide : acceptsPx 2 1000 = true), fun c hc => absurd hc List.not_mem_nil⟩)

/-- The times to live that Redis takes. -/
def Call.accepted (now : Date) : Call B → Bool
  | .claim _ _ ttlMs _ => acceptsPx now ttlMs
  | .complete _ _ _ _ ttlMs => acceptsPx now ttlMs
  | .release _ _ => true

/-- The UUIDs of claims. -/
def Call.uuid? : Call B → Option String
  | .claim _ _ _ uuid => some uuid
  | _ => none

/-- Whether an outcome is that a record was stored. -/
def Outcome.stored : Outcome → Bool
  | .claimed _ => true
  | .completed stored => stored
  | _ => false

/-- Redis completes a record a second time with the text of it, and a claim with
no time to live takes its key in memory only. -/
theorem not_sameOutcomes :
    (¬ ∀ calls : List (Date × Call exampleBodies), InOrder calls →
      (calls.filterMap fun c => c.2.uuid?).Nodup → (∀ c ∈ calls, c.2.accepted c.1 = true) →
        SameOutcomes calls) ∧
    ¬ ∀ calls : List (Date × Call exampleBodies), InOrder calls →
      (calls.filterMap fun c => c.2.uuid?).Nodup →
        (∀ c ∈ calls, ∀ key lease fingerprint response ttlMs,
          c.2 = .complete key lease fingerprint response ttlMs → IsNoRecord exampleBodies lease) →
        SameOutcomes calls := by
  constructor
  · intro h
    have hsame := h [(0, .claim "k" "f" 1000 "u1"),
      (1, .complete "k" (inFlightValue "f" "u1") "f" exampleResponse 5000),
      (2, .complete "k" (Json.stringify exampleRecord.toJson) "f" exampleResponse 5000)]
      (by decide) (by decide) (by decide)
    have hstored := congrArg (List.map Outcome.stored) hsame
    exact absurd hstored (by decide +kernel)
  · intro h
    have hsame := h [(0, .claim "k" "f" 0 "u1")] (by decide) (by decide) (by
      intro c hc key lease fingerprint response ttlMs heq
      rw [List.mem_singleton.mp hc] at heq
      cases heq)
    have hstored := congrArg (List.map Outcome.stored) hsame
    exact absurd hstored (by decide +kernel)

end Vynor.Idempotency.Texts
