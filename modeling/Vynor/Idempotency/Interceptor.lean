import Vynor.Idempotency.Store
import Vynor.Lib.Machine

/-!
# Requests with an Idempotency-Key

`IdempotencyInterceptor`, for any number of requests over one store.  A request
is cut at its awaits, and `Stage` names the points where it can stand.

* `waiting`: its claim has not been sent, or has not reached the store yet.
* `running`: its claim took the key, and the handler runs.
* `ended`: the handler has ended, and `complete` or `release` is awaited.
* `succeeded`: the handler succeeded and its body was returned.
* `answered`: the request was answered in another way.
* `died`: the process stopped while the handler ran.

A call of the store happens at one action.  The call may not reach the store,
or its reply may be lost.  A process that stops after the handler has ended is
a call that does not reach the store.
-/

namespace Vynor.Idempotency

open Lib (Machine Expiring)

variable {β ρ : Type}

/-! ## Which requests the store sees -/

/-- What the interceptor reads of a request. -/
structure Request where
  method : String
  workspaceId : Option String
  path : String
  idempotencyKey : Option String
  fingerprint : String
deriving DecidableEq

/-- What `apiError` renders. -/
structure ApiError where
  statusCode : Nat
  code : String
  message : String
deriving DecidableEq

def invalidKey : ApiError where
  statusCode := 400
  code := "BAD_REQUEST"
  message :=
    "Invalid Idempotency-Key header. Must be 8-128 alphanumeric, dash, or underscore characters."

def storeUnavailable : ApiError where
  statusCode := 503
  code := "SERVICE_UNAVAILABLE"
  message :=
    "Requests with an Idempotency-Key cannot be processed right now. Please retry shortly."

def keyReused : ApiError where
  statusCode := 422
  code := "IDEMPOTENCY_KEY_REUSED"
  message :=
    "This Idempotency-Key was already used for a request with a different payload. " ++
      "Use a new key for a new request."

def keyConflict : ApiError where
  statusCode := 409
  code := "IDEMPOTENCY_CONFLICT"
  message :=
    "A request with this Idempotency-Key is currently in progress. Please retry shortly."

/-- `IdempotencyKeyHeaderSchema`. -/
def isIdempotencyKey (key : String) : Bool :=
  8 ≤ key.length && key.length ≤ 128 &&
    key.toList.all fun c => c.isAlphanum || c = '_' || c = '-'

/-- What becomes of a request before any call of the store. -/
inductive Plan where
  | pass
  | refuse (error : ApiError)
  | guard (recordKey : String)
deriving DecidableEq

/-- `intercept`, up to the claim. -/
def intercept (sha256 : String → String) (request : Request) : Plan :=
  let isMutatingMethod := ["POST", "PATCH", "DELETE"].contains request.method.toUpper
  if !isMutatingMethod then .pass
  else
    match truthy request.idempotencyKey with
    | none => .pass
    | some rawKey =>
        if isIdempotencyKey rawKey then
          let workspaceId := request.workspaceId.getD "global"
          .guard (idempotencyRecordKey sha256 workspaceId request.method request.path rawKey)
        else .refuse invalidKey

/-- A request that has to claim a record. -/
structure GuardedRequest (sha256 : String → String) where
  request : Request
  recordKey : String
  guarded : intercept sha256 request = .guard recordKey

/-- The workspace, method, path and Idempotency-Key of a request. -/
def GuardedRequest.scope {sha256 : String → String} (g : GuardedRequest sha256) :
    String × String × String × Option String :=
  (g.request.workspaceId.getD "global", g.request.method, g.request.path, g.request.idempotencyKey)

/-- Requests of one scope claim one record. -/
theorem recordKey_eq_of_scope {sha256 : String → String} {g g' : GuardedRequest sha256}
    (h : g.scope = g'.scope) : g.recordKey = g'.recordKey := by
  have hplan : intercept sha256 g.request = intercept sha256 g'.request := by
    simp only [GuardedRequest.scope, Prod.mk.injEq] at h
    obtain ⟨hworkspace, hmethod, hpath, hkey⟩ := h
    simp only [intercept, hworkspace, hmethod, hpath, hkey]
  rw [g.guarded, g'.guarded] at hplan
  exact Plan.guard.inj hplan

/-! ## Answers -/

/-- A status that Node can send, so that `statusCode || 200` is the status. -/
structure StatusCode where
  code : Nat
  valid : 100 ≤ code ∧ code ≤ 999
deriving DecidableEq

/-- How a handler ends. -/
inductive Outcome (β : Type) where
  | success (status : StatusCode) (body : β)
  | failure (error : String)
deriving DecidableEq

inductive Answer (β : Type) where
  | replay (response : StoredResponse β)
  | error (error : ApiError)
  | thrown (error : String)
deriving DecidableEq

def answerFromRecord (record : IdempotencyRecord β) (fingerprint : String) : Answer β :=
  if record.fingerprint ≠ fingerprint then .error keyReused
  else
    match record with
    | .inFlight _ => .error keyConflict
    | .completed _ response => .replay response

theorem answerFromRecord_completed (fingerprint fingerprint' : String)
    (response : StoredResponse β) :
    answerFromRecord (.completed fingerprint response) fingerprint' =
      if fingerprint = fingerprint' then .replay response else .error keyReused := by
  by_cases h : fingerprint = fingerprint'
  · simp [answerFromRecord, IdempotencyRecord.fingerprint, h]
  · simp [answerFromRecord, IdempotencyRecord.fingerprint, h]

theorem answerFromRecord_inFlight (fingerprint fingerprint' : String) :
    answerFromRecord (.inFlight fingerprint : IdempotencyRecord β) fingerprint' =
      .error (if fingerprint = fingerprint' then keyConflict else keyReused) := by
  by_cases h : fingerprint = fingerprint'
  · simp [answerFromRecord, IdempotencyRecord.fingerprint, h]
  · simp [answerFromRecord, IdempotencyRecord.fingerprint, h]

/-- `response.statusCode || HttpStatus.OK`, with the body. -/
def storedResponse (status : StatusCode) (body : β) : StoredResponse β :=
  ⟨if status.code = 0 then 200 else status.code, body⟩

theorem storedResponse_eq (status : StatusCode) (body : β) :
    storedResponse status body = ⟨status.code, body⟩ := by
  have hpos : status.code ≠ 0 := fun h => absurd status.valid.1 (by omega)
  rw [storedResponse, if_neg hpos]

/-! ## The machine -/

/-- Completed responses are replayed for this long. -/
def TTL_MS : Date := 24 * 60 * 60 * 1000

/-- A request that neither completes nor fails frees its key after this. -/
def IN_FLIGHT_TTL_MS : Date := 60 * 1000

/-- Where a request stands.  `claimedAt` and `completedAt` are the moments its
record was written. -/
inductive Stage (β : Type) where
  | waiting
  | running (lease : StoredInFlight) (claimedAt : Date)
  | ended (lease : StoredInFlight) (claimedAt : Date) (outcome : Outcome β)
  | succeeded (lease : StoredInFlight) (claimedAt completedAt : Date) (status : StatusCode)
      (body : β)
  | answered (answer : Answer β)
  | died
deriving DecidableEq

/-- The clock, the store, the requests, and the UUIDs that were drawn. -/
structure World (S : IdempotencyStore β) (ρ : Type) where
  now : Date
  store : S.State
  stage : ρ → Stage β
  uuids : List String

/-- How far a call of the store gets. -/
inductive Call where
  | replied
  | replyLost
  | notReached
deriving DecidableEq

/-- What can happen next. -/
inductive Action (ρ β : Type) where
  | claim (r : ρ) (now later : Date) (uuid : String) (call : Call)
  | finish (r : ρ) (now : Date) (outcome : Outcome β)
  | crash (r : ρ)
  | complete (r : ρ) (now later : Date) (call : Call)
  | release (r : ρ) (now : Date) (call : Call)

variable {sha256 : String → String} {S : IdempotencyStore β} [DecidableEq ρ]

/-- The same world with one request at another point. -/
def World.setStage (w : World S ρ) (r : ρ) (stage : Stage β) : World S ρ :=
  { w with stage := Function.update w.stage r stage }

/-- The claim of a request, and how the interceptor goes on. -/
def stepClaim (w : World S ρ) (r : ρ) (request : GuardedRequest sha256) (now later : Date)
    (uuid : String) (call : Call) : World S ρ :=
  let fingerprint := request.request.fingerprint
  let claim :=
    S.claim w.store now later request.recordKey fingerprint IN_FLIGHT_TTL_MS uuid
  let w := { w with now := later, uuids := uuid :: w.uuids }
  match call with
  | .notReached => w.setStage r (.answered (.error storeUnavailable))
  | .replyLost => { w.setStage r (.answered (.error storeUnavailable)) with store := claim.1 }
  | .replied =>
      match claim.2 with
      | .claimed lease => { w.setStage r (.running lease later) with store := claim.1 }
      | .found record =>
          { w.setStage r (.answered (answerFromRecord record fingerprint)) with store := claim.1 }

/-- The store after a completion. -/
def storeCompleted (w : World S ρ) (request : GuardedRequest sha256) (lease : StoredInFlight)
    (response : StoredResponse β) (now later : Date) (call : Call) : S.State :=
  if call = .notReached then w.store
  else
    (S.complete w.store now later request.recordKey lease request.request.fingerprint response
      TTL_MS).1

/-- The store after a release. -/
def storeReleased (w : World S ρ) (request : GuardedRequest sha256) (lease : StoredInFlight)
    (now : Date) (call : Call) : S.State :=
  if call = .notReached then w.store else S.release w.store now request.recordKey lease

/-- One action. -/
def step (requests : ρ → GuardedRequest sha256) (w : World S ρ) :
    Action ρ β → Option (World S ρ)
  | .claim r now later uuid call =>
      match w.stage r with
      | .waiting =>
          if w.now ≤ now ∧ now ≤ later ∧ uuid ∉ w.uuids then
            some (stepClaim w r (requests r) now later uuid call)
          else none
      | _ => none
  | .finish r now outcome =>
      match w.stage r with
      | .running lease claimedAt =>
          if w.now ≤ now then
            some { w.setStage r (.ended lease claimedAt outcome) with now := now }
          else none
      | _ => none
  | .crash r =>
      match w.stage r with
      | .running _ _ => some (w.setStage r .died)
      | _ => none
  | .complete r now later call =>
      match w.stage r with
      | .ended lease claimedAt (.success status body) =>
          if w.now ≤ now ∧ now ≤ later then
            some
              { w.setStage r (.succeeded lease claimedAt later status body) with
                now := later
                store :=
                  storeCompleted w (requests r) lease (storedResponse status body) now later call }
          else none
      | _ => none
  | .release r now call =>
      match w.stage r with
      | .ended lease _ (.failure error) =>
          if w.now ≤ now then
            some
              { w.setStage r (.answered (.thrown error)) with
                now := now
                store := storeReleased w (requests r) lease now call }
          else none
      | _ => none

/-- Any number of requests over one store. -/
def machine (S : IdempotencyStore β) (requests : ρ → GuardedRequest sha256) :
    Machine (World S ρ) (Action ρ β) := ⟨step requests⟩

/-! ## What a step does -/

/-- The lease a request was given, and when. -/
def Stage.lease? : Stage β → Option (StoredInFlight × Date)
  | .running lease claimedAt => some (lease, claimedAt)
  | .ended lease claimedAt _ => some (lease, claimedAt)
  | .succeeded lease claimedAt _ _ _ => some (lease, claimedAt)
  | _ => none

/-- The lease of a handler run in flight: the handler runs, or it has succeeded
and its completion is awaited. -/
def Stage.inFlight? : Stage β → Option (StoredInFlight × Date)
  | .running lease claimedAt => some (lease, claimedAt)
  | .ended lease claimedAt (.success _ _) => some (lease, claimedAt)
  | _ => none

/-- When a handler run that succeeded was completed, and its response. -/
def Stage.success? : Stage β → Option (Date × Date × StoredResponse β)
  | .succeeded _ claimedAt completedAt status body =>
      some (claimedAt, completedAt, ⟨status.code, body⟩)
  | _ => none

theorem Stage.lease?_of_inFlight? {x : Stage β} {p : StoredInFlight × Date}
    (h : x.inFlight? = some p) : x.lease? = some p := by
  cases x with
  | running lease claimedAt => exact h
  | ended lease claimedAt outcome =>
      cases outcome with
      | success status body => exact h
      | failure error => cases h
  | _ => cases h

/-- The records of a world. -/
def World.records (L : Leases S) (w : World S ρ) : RedisDb β := L.entries w.store

@[simp] theorem World.records_setStage (L : Leases S) (w : World S ρ) (r : ρ) (x : Stage β) :
    (w.setStage r x).records L = w.records L := rfl

/-- What a step does to the records and to the request that moves. -/
inductive Effect (L : Leases S) (requests : ρ → GuardedRequest sha256) (w w' : World S ρ) :
    Action ρ β → Prop where
  /-- A claim takes the key. -/
  | take {r : ρ} {now later t : Date} {uuid : String} {call : Call} {x : Stage β}
      (hstage : w.stage r = .waiting) (hnow : w'.now = later) (hfrom : w.now ≤ t) (hto : t ≤ later)
      (hfresh : uuid ∉ w.uuids)
      (hget : (w.records L).get t (requests r).recordKey = none)
      (hmap : (w'.records L).AgreeFrom later ((w.records L).set (requests r).recordKey
        (.inFlight (inFlightValue (requests r).request.fingerprint uuid))
        (later + IN_FLIGHT_TTL_MS)))
      (hx : x = .running (inFlightValue (requests r).request.fingerprint uuid) later ∨
        ∃ answer, x = .answered answer)
      (hw : w'.stage = Function.update w.stage r x) (huuids : w'.uuids = uuid :: w.uuids) :
      Effect L requests w w' (.claim r now later uuid call)
  /-- A claim finds a record, or does not reach the store. -/
  | refused {r : ρ} {now later : Date} {uuid : String} {call : Call} {answer : Answer β}
      (hstage : w.stage r = .waiting) (hnow : w'.now = later) (hto : w.now ≤ later)
      (hanswer : call = .replied → ∃ t e, w.now ≤ t ∧ t ≤ later ∧
        (w.records L).get t (requests r).recordKey = some e ∧
        answer = answerFromRecord (toRecord e.value) (requests r).request.fingerprint)
      (hmap : (w'.records L).AgreeFrom later (w.records L))
      (hw : w'.stage = Function.update w.stage r (.answered answer))
      (huuids : w'.uuids = uuid :: w.uuids) :
      Effect L requests w w' (.claim r now later uuid call)
  | finish {r : ρ} {now claimedAt : Date} {outcome : Outcome β} {lease : StoredInFlight}
      (hstage : w.stage r = .running lease claimedAt) (hto : w.now ≤ now)
      (hw : w' = { w.setStage r (.ended lease claimedAt outcome) with now := now }) :
      Effect L requests w w' (.finish r now outcome)
  | crash {r : ρ} {claimedAt : Date} {lease : StoredInFlight}
      (hstage : w.stage r = .running lease claimedAt) (hw : w' = w.setStage r .died) :
      Effect L requests w w' (.crash r)
  /-- A completion replaces the record of its lease, or nothing. -/
  | complete {r : ρ} {now later t claimedAt : Date} {call : Call} {lease : StoredInFlight}
      {status : StatusCode} {body : β}
      (hstage : w.stage r = .ended lease claimedAt (.success status body)) (hnow : w'.now = later)
      (hafter : w.now ≤ now) (hfrom : now ≤ t) (hto : t ≤ later)
      (hmap :
        (∃ e, (w.records L).get t (requests r).recordKey = some e ∧ e.value = .inFlight lease ∧
          (w'.records L).AgreeFrom later ((w.records L).set (requests r).recordKey
            (.completed (requests r).request.fingerprint ⟨status.code, body⟩) (later + TTL_MS))) ∨
        ((call = .notReached ∨ ∀ e, (w.records L).get t (requests r).recordKey = some e →
          e.value ≠ .inFlight lease) ∧ (w'.records L).AgreeFrom later (w.records L)))
      (hw : w'.stage = Function.update w.stage r (.succeeded lease claimedAt later status body))
      (huuids : w'.uuids = w.uuids) :
      Effect L requests w w' (.complete r now later call)
  /-- A release removes the record of its lease, or nothing. -/
  | release {r : ρ} {now claimedAt : Date} {call : Call} {lease : StoredInFlight} {error : String}
      (hstage : w.stage r = .ended lease claimedAt (.failure error)) (hnow : w'.now = now)
      (hto : w.now ≤ now)
      (hmap :
        (∃ e, (w.records L).get now (requests r).recordKey = some e ∧ e.value = .inFlight lease ∧
          (w'.records L).AgreeFrom now ((w.records L).del (requests r).recordKey)) ∨
        (w'.records L).AgreeFrom now (w.records L))
      (hw : w'.stage = Function.update w.stage r (.answered (.thrown error)))
      (huuids : w'.uuids = w.uuids) :
      Effect L requests w w' (.release r now call)

theorem effect_claim (L : Leases S) {requests : ρ → GuardedRequest sha256} {w : World S ρ} {r : ρ}
    {now later : Date} {uuid : String} (call : Call) (hstage : w.stage r = .waiting)
    (hnow : w.now ≤ now) (hlater : now ≤ later) (hfresh : uuid ∉ w.uuids) :
    Effect L requests w (stepClaim w r (requests r) now later uuid call)
      (.claim r now later uuid call) := by
  have hle := Int.le_trans hnow hlater
  have hclaim := L.claim w.store (requests r).recordKey (requests r).request.fingerprint
    IN_FLIGHT_TTL_MS uuid hlater
  rcases hresult : S.claim w.store now later (requests r).recordKey
    (requests r).request.fingerprint IN_FLIGHT_TTL_MS uuid with ⟨store, claim⟩
  rw [hresult] at hclaim
  cases call with
  | notReached =>
      exact .refused hstage rfl hle (fun h => by cases h) (Expiring.AgreeFrom.refl _ _) rfl rfl
  | replyLost =>
      simp only [stepClaim, hresult]
      cases hclaim with
      | found hfrom hto hget hmap =>
          exact .refused hstage rfl hle (fun h => by cases h) hmap rfl rfl
      | taken hfrom hto hget hmap =>
          exact .take hstage rfl (Int.le_trans hnow hfrom) hto hfresh hget hmap
            (Or.inr ⟨_, rfl⟩) rfl rfl
  | replied =>
      cases hclaim with
      | found hfrom hto hget hmap =>
          simp only [stepClaim, hresult]
          exact .refused hstage rfl hle
            (fun _ => ⟨_, _, Int.le_trans hnow hfrom, hto, hget, rfl⟩) hmap rfl rfl
      | taken hfrom hto hget hmap =>
          simp only [stepClaim, hresult]
          exact .take hstage rfl (Int.le_trans hnow hfrom) hto hfresh hget hmap
            (Or.inl rfl) rfl rfl

omit [DecidableEq ρ] in
/-- What the completion of a request leaves in the store. -/
theorem records_storeCompleted (L : Leases S) (w : World S ρ) (request : GuardedRequest sha256)
    (lease : StoredInFlight) (response : StoredResponse β) {now later : Date} (call : Call)
    (hlater : now ≤ later) :
    ∃ t, now ≤ t ∧ t ≤ later ∧
      ((∃ e, (w.records L).get t request.recordKey = some e ∧ e.value = .inFlight lease ∧
        (L.entries (storeCompleted w request lease response now later call)).AgreeFrom later
          ((w.records L).set request.recordKey
            (.completed request.request.fingerprint response) (later + TTL_MS))) ∨
      ((call = .notReached ∨ ∀ e, (w.records L).get t request.recordKey = some e →
        e.value ≠ .inFlight lease) ∧
        (L.entries (storeCompleted w request lease response now later call)).AgreeFrom later
          (w.records L))) := by
  by_cases hcall : call = .notReached
  · rw [storeCompleted, if_pos hcall]
    exact ⟨now, Int.le_refl now, hlater, Or.inr ⟨Or.inl hcall, Expiring.AgreeFrom.refl _ _⟩⟩
  · rw [storeCompleted, if_neg hcall]
    have hcomplete := L.complete w.store request.recordKey lease request.request.fingerprint response
      TTL_MS hlater
    cases hresult : (S.complete w.store now later request.recordKey lease
      request.request.fingerprint response TTL_MS).2 with
    | false =>
        rw [hresult] at hcomplete
        cases hcomplete with
        | missed hfrom hto hlease hmap => exact ⟨_, hfrom, hto, Or.inr ⟨Or.inr hlease, hmap⟩⟩
    | true =>
        rw [hresult] at hcomplete
        cases hcomplete with
        | stored hfrom hto hget hlease hmap =>
            exact ⟨_, hfrom, hto, Or.inl ⟨_, hget, hlease, hmap⟩⟩

omit [DecidableEq ρ] in
/-- What the release of a request leaves in the store. -/
theorem records_storeReleased (L : Leases S) (w : World S ρ) (request : GuardedRequest sha256)
    (lease : StoredInFlight) (now : Date) (call : Call) :
    (∃ e, (w.records L).get now request.recordKey = some e ∧ e.value = .inFlight lease ∧
      (L.entries (storeReleased w request lease now call)).AgreeFrom now
        ((w.records L).del request.recordKey)) ∨
    (L.entries (storeReleased w request lease now call)).AgreeFrom now (w.records L) := by
  by_cases hcall : call = .notReached
  · rw [storeReleased, if_pos hcall]
    exact Or.inr (Expiring.AgreeFrom.refl _ _)
  · rw [storeReleased, if_neg hcall]
    cases L.release w.store now request.recordKey lease with
    | freed hget hlease hmap => exact Or.inl ⟨_, hget, hlease, hmap⟩
    | missed hlease hmap => exact Or.inr hmap

/-- Every step has one of these effects. -/
theorem effect_of_step (L : Leases S) {requests : ρ → GuardedRequest sha256} {w w' : World S ρ}
    {a : Action ρ β} (h : step requests w a = some w') : Effect L requests w w' a := by
  cases a with
  | claim r now later uuid call =>
      simp only [step] at h
      split at h
      · split at h
        · next hstage hguard =>
            rw [Option.some.injEq] at h
            subst h
            exact effect_claim L call hstage hguard.1 hguard.2.1 hguard.2.2
        · cases h
      · cases h
  | finish r now outcome =>
      simp only [step] at h
      split at h
      · split at h
        · next hstage hnow => exact .finish hstage hnow (Option.some.inj h).symm
        · cases h
      · cases h
  | crash r =>
      simp only [step] at h
      split at h
      · next hstage => exact .crash hstage (Option.some.inj h).symm
      · cases h
  | complete r now later call =>
      simp only [step] at h
      split at h
      · split at h
        · next hstage hguard =>
            rw [storedResponse_eq, Option.some.injEq] at h
            subst h
            obtain ⟨t, hfrom, hto, hmap⟩ :=
              records_storeCompleted L w (requests r) _ _ call hguard.2
            exact .complete hstage rfl hguard.1 hfrom hto hmap rfl rfl
        · cases h
      · cases h
  | release r now call =>
      simp only [step] at h
      split at h
      · split at h
        · next hstage hnow =>
            rw [Option.some.injEq] at h
            subst h
            exact .release hstage rfl hnow (records_storeReleased L w (requests r) _ now call) rfl
              rfl
        · cases h
      · cases h

end Vynor.Idempotency
