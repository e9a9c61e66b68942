import Vynor.Idempotency.Interceptor

/-!
# At most one run succeeds

A lease belongs to one request, in every run (`LeasesApart`).  A completion or
release whose lease has run out therefore finds a record of another request or
none, and leaves it alone.

A run is *prompt* when nothing happens later than 60 s after the claim of a
handler run in flight, and every completion reaches the store.  In a prompt run
the record of a run in flight is its lease, and the record of a run that
succeeded is its response for 24 hours (`Guarding`).  No claim takes the key in
between.
-/

namespace Vynor.Idempotency

open Lib (Machine Expiring Timed)

variable {β ρ : Type} {sha256 : String → String} {S : IdempotencyStore β} [DecidableEq ρ]

/-- What is found under a key now. -/
def World.found (L : Leases S) (w : World S ρ) (key : String) : Option (Timed Date (Stored β)) :=
  (w.records L).get w.now key

/-! ## Leases belong to one request -/

/-- Every lease was drawn, belongs to one request, and ends with its TTL. -/
structure LeasesApart (L : Leases S) (requests : ρ → GuardedRequest sha256) (w : World S ρ) :
    Prop where
  drawn : ∀ r lease claimedAt, (w.stage r).lease? = some (lease, claimedAt) →
    lease.lease ∈ w.uuids ∧ lease.fingerprint = (requests r).request.fingerprint
  distinct : ∀ r r' lease claimedAt claimedAt', (w.stage r).lease? = some (lease, claimedAt) →
    (w.stage r').lease? = some (lease, claimedAt') → r = r'
  stored : ∀ key e lease, w.found L key = some e → e.value = .inFlight lease →
    lease.lease ∈ w.uuids
  owned : ∀ r lease claimedAt key e, (w.stage r).lease? = some (lease, claimedAt) →
    w.found L key = some e → e.value = .inFlight lease → e.expiresAt = claimedAt + IN_FLIGHT_TTL_MS

omit [DecidableEq ρ] in
/-- What is found after a time in which nothing was written was there before. -/
theorem found_of_agree {L : Leases S} {w : World S ρ} {later : Date} {m : RedisDb β}
    (hnow : w.now = later) (hmap : (w.records L).AgreeFrom later m) (key : String) :
    w.found L key = m.get later key := by
  rw [World.found, hnow]
  exact hmap later key (Int.le_refl later)

theorem stage_update_cases {f g : ρ → Stage β} {r r' : ρ} {x : Stage β} {γ : Type}
    {view : Stage β → Option γ} {p : γ} (hg : g = Function.update f r x)
    (h : view (g r') = some p) : r' = r ∧ view x = some p ∨ r' ≠ r ∧ view (f r') = some p := by
  subst hg
  by_cases hr : r' = r
  · rw [hr, Function.update_self] at h
    exact Or.inl ⟨hr, h⟩
  · rw [Function.update_of_ne hr] at h
    exact Or.inr ⟨hr, h⟩

/-- What the new stage does not show was there before. -/
theorem stage_update_of_none {f g : ρ → Stage β} {r r' : ρ} {x : Stage β} {γ : Type}
    {view : Stage β → Option γ} {p : γ} (hg : g = Function.update f r x) (hx : view x = none)
    (h : view (g r') = some p) : r' ≠ r ∧ view (f r') = some p := by
  rcases stage_update_cases hg h with ⟨_, hnew⟩ | hold
  · rw [hx] at hnew
    cases hnew
  · exact hold

omit [DecidableEq ρ] in
/-- Steps that give out no lease and write none keep the leases apart. -/
theorem LeasesApart.keep {L : Leases S} {requests : ρ → GuardedRequest sha256} {w w' : World S ρ}
    (hI : LeasesApart L requests w)
    (hlease : ∀ r p, (w'.stage r).lease? = some p → (w.stage r).lease? = some p)
    (hfound : ∀ key e lease, w'.found L key = some e → e.value = .inFlight lease →
      w.found L key = some e)
    (huuids : w.uuids ⊆ w'.uuids) : LeasesApart L requests w' := by
  constructor
  · intro r lease claimedAt h
    obtain ⟨hmem, hfingerprint⟩ := hI.drawn r lease claimedAt (hlease r _ h)
    exact ⟨huuids hmem, hfingerprint⟩
  · intro r r' lease claimedAt claimedAt' h h'
    exact hI.distinct r r' lease claimedAt claimedAt' (hlease r _ h) (hlease r' _ h')
  · intro key e lease he hvalue
    exact huuids (hI.stored key e lease (hfound key e lease he hvalue) hvalue)
  · intro r lease claimedAt key e h he hvalue
    exact hI.owned r lease claimedAt key e (hlease r _ h) (hfound key e lease he hvalue) hvalue

/-- A claim that takes a key takes it with a lease nobody has. -/
theorem LeasesApart.take {L : Leases S} {requests : ρ → GuardedRequest sha256} {w w' : World S ρ}
    {r : ρ} {later : Date} {uuid : String} {x : Stage β} (hI : LeasesApart L requests w)
    (hnow : w'.now = later) (hto : w.now ≤ later) (hfresh : uuid ∉ w.uuids)
    (hmap : (w'.records L).AgreeFrom later ((w.records L).set (requests r).recordKey
      (.inFlight (inFlightValue (requests r).request.fingerprint uuid))
      (later + IN_FLIGHT_TTL_MS)))
    (hx : x = .running (inFlightValue (requests r).request.fingerprint uuid) later ∨
      ∃ answer, x = .answered answer)
    (hw : w'.stage = Function.update w.stage r x) (huuids : w'.uuids = uuid :: w.uuids) :
    LeasesApart L requests w' := by
  have hlease : ∀ r' p, (w'.stage r').lease? = some p →
      r' = r ∧ p = (inFlightValue (requests r).request.fingerprint uuid, later) ∨
        (w.stage r').lease? = some p := by
    intro r' p h
    rcases stage_update_cases hw h with ⟨hr, hp⟩ | ⟨_, hold⟩
    · rcases hx with rfl | ⟨answer, rfl⟩
      · exact Or.inl ⟨hr, (Option.some.inj hp).symm⟩
      · cases hp
    · exact Or.inr hold
  have hfound : ∀ key e, w'.found L key = some e →
      e = ⟨.inFlight (inFlightValue (requests r).request.fingerprint uuid),
        later + IN_FLIGHT_TTL_MS⟩ ∨ w.found L key = some e := by
    intro key e he
    rw [found_of_agree hnow hmap] at he
    rcases Expiring.get_set_cases he with ⟨_, hnew⟩ | ⟨_, hold⟩
    · exact Or.inl hnew
    · exact Or.inr (Expiring.get_earlier hold hto)
  have hnew : ∀ r' claimedAt, (w.stage r').lease? ≠
      some (inFlightValue (requests r).request.fingerprint uuid, claimedAt) :=
    fun r' claimedAt h => hfresh (hI.drawn r' _ claimedAt h).1
  constructor
  · intro r' lease claimedAt h
    rw [huuids]
    rcases hlease r' _ h with ⟨rfl, hp⟩ | hold
    · cases hp
      exact ⟨List.mem_cons_self, rfl⟩
    · obtain ⟨hmem, hfingerprint⟩ := hI.drawn r' lease claimedAt hold
      exact ⟨List.mem_cons_of_mem uuid hmem, hfingerprint⟩
  · intro r1 r2 lease claimedAt claimedAt' h1 h2
    rcases hlease r1 _ h1 with ⟨rfl, hp⟩ | hold1
    · rcases hlease r2 _ h2 with ⟨rfl, _⟩ | hold2
      · rfl
      · cases hp
        exact absurd hold2 (hnew r2 claimedAt')
    · rcases hlease r2 _ h2 with ⟨rfl, hp⟩ | hold2
      · cases hp
        exact absurd hold1 (hnew r1 claimedAt)
      · exact hI.distinct r1 r2 lease claimedAt claimedAt' hold1 hold2
  · intro key e lease he hvalue
    rw [huuids]
    rcases hfound key e he with rfl | hold
    · cases hvalue
      exact List.mem_cons_self
    · exact List.mem_cons_of_mem uuid (hI.stored key e lease hold hvalue)
  · intro r' lease claimedAt key e h he hvalue
    rcases hlease r' _ h with ⟨rfl, hp⟩ | hold
    · cases hp
      rcases hfound key e he with rfl | hold
      · rfl
      · exact absurd (hI.stored key e _ hold hvalue) hfresh
    · rcases hfound key e he with rfl | holdEntry
      · cases hvalue
        exact absurd hold (hnew r' claimedAt)
      · exact hI.owned r' lease claimedAt key e hold holdEntry hvalue

theorem leasesApart_step {L : Leases S} {requests : ρ → GuardedRequest sha256} {w w' : World S ρ}
    {a : Action ρ β} (hI : LeasesApart L requests w) (h : step requests w a = some w') :
    LeasesApart L requests w' := by
  cases effect_of_step L h with
  | take hstage hnow hfrom hto hfresh hget hmap hx hw huuids =>
      exact hI.take hnow (Int.le_trans hfrom hto) hfresh hmap hx hw huuids
  | refused hstage hnow hto hanswer hmap hw huuids =>
      refine hI.keep ?_ ?_ ?_
      · exact fun r p hp => (stage_update_of_none hw rfl hp).2
      · intro key e lease he _
        rw [found_of_agree hnow hmap] at he
        exact Expiring.get_earlier he hto
      · rw [huuids]
        exact List.subset_cons_self _ _
  | finish hstage hto hw =>
      subst hw
      refine hI.keep ?_ ?_ (List.Subset.refl _)
      · intro r p hp
        rcases stage_update_cases rfl hp with ⟨rfl, hx⟩ | ⟨_, hold⟩
        · rw [hstage]
          exact hx
        · exact hold
      · intro key e lease he _
        exact Expiring.get_earlier he hto
  | crash hstage hw =>
      subst hw
      refine hI.keep ?_ (fun _ _ _ he _ => he) (List.Subset.refl _)
      exact fun r p hp => (stage_update_of_none rfl rfl hp).2
  | complete hstage hnow hafter hfrom hto hmap hw huuids =>
      have hle := Int.le_trans hafter (Int.le_trans hfrom hto)
      refine hI.keep ?_ ?_ (huuids ▸ List.Subset.refl _)
      · intro r p hp
        rcases stage_update_cases hw hp with ⟨rfl, hx⟩ | ⟨_, hold⟩
        · rw [hstage]
          exact hx
        · exact hold
      · intro key e lease he hvalue
        rcases hmap with ⟨_, _, _, hmap⟩ | ⟨_, hmap⟩
        · rw [found_of_agree hnow hmap] at he
          rcases Expiring.get_set_cases he with ⟨_, rfl⟩ | ⟨_, hold⟩
          · cases hvalue
          · exact Expiring.get_earlier hold hle
        · rw [found_of_agree hnow hmap] at he
          exact Expiring.get_earlier he hle
  | release hstage hnow hto hmap hw huuids =>
      refine hI.keep ?_ ?_ (huuids ▸ List.Subset.refl _)
      · exact fun r p hp => (stage_update_of_none hw rfl hp).2
      · intro key e lease he _
        rcases hmap with ⟨_, _, _, hmap⟩ | hmap
        · rw [found_of_agree hnow hmap] at he
          exact Expiring.get_earlier (Expiring.get_of_get_del he) hto
        · rw [found_of_agree hnow hmap] at he
          exact Expiring.get_earlier he hto

/-- No request has claimed anything yet, and the UUIDs of the leases that are
already in the store were drawn. -/
structure World.Fresh (L : Leases S) (w : World S ρ) : Prop where
  waiting : ∀ r, w.stage r = .waiting
  stored : ∀ key e lease, w.found L key = some e → e.value = .inFlight lease →
    lease.lease ∈ w.uuids

omit [DecidableEq ρ] in
theorem leasesApart_fresh {L : Leases S} {requests : ρ → GuardedRequest sha256} {w : World S ρ}
    (h : w.Fresh L) : LeasesApart L requests w := by
  have hnone : ∀ r p, (w.stage r).lease? ≠ some p := by
    intro r p hp
    rw [h.waiting r] at hp
    cases hp
  exact ⟨fun r lease claimedAt hp => absurd hp (hnone r _),
    fun r r' lease claimedAt claimedAt' hp => absurd hp (hnone r _), h.stored,
    fun r lease claimedAt key e hp => absurd hp (hnone r _)⟩

/-- A completion or release whose claim has expired changes no record. -/
def LateHarmless (L : Leases S) (w : World S ρ) (a : Action ρ β) (w' : World S ρ) : Prop :=
  ∀ r now, (∃ later call, a = .complete r now later call) ∨ (∃ call, a = .release r now call) →
    ∀ lease claimedAt, (w.stage r).lease? = some (lease, claimedAt) →
      claimedAt + IN_FLIGHT_TTL_MS < now → (w'.records L).AgreeFrom w'.now (w.records L)

omit [DecidableEq ρ] in
/-- The record of a lease is not found after its TTL. -/
theorem LeasesApart.expired {L : Leases S} {requests : ρ → GuardedRequest sha256} {w : World S ρ}
    {r : ρ} {lease : StoredInFlight} {claimedAt t : Date} {key : String}
    {e : Timed Date (Stored β)} (hI : LeasesApart L requests w)
    (hlease : (w.stage r).lease? = some (lease, claimedAt)) (hnow : w.now ≤ t)
    (hget : (w.records L).get t key = some e) (hvalue : e.value = .inFlight lease) :
    t ≤ claimedAt + IN_FLIGHT_TTL_MS := by
  have hexpires := hI.owned r lease claimedAt key e hlease (Expiring.get_earlier hget hnow) hvalue
  rw [← hexpires]
  exact (Expiring.get_eq_some.mp hget).2

theorem lateHarmless_step {L : Leases S} {requests : ρ → GuardedRequest sha256}
    {w w' : World S ρ} {a : Action ρ β} (hI : LeasesApart L requests w)
    (h : step requests w a = some w') : LateHarmless L w a w' := by
  intro r now hcall lease claimedAt hlease hlate
  cases effect_of_step L h with
  | complete hstage hnow hafter hfrom hto hmap hw huuids =>
      rcases hcall with ⟨_, _, ha⟩ | ⟨_, ha⟩
      · cases ha
        rw [hstage] at hlease
        cases hlease
        rcases hmap with ⟨e, hget, hvalue, _⟩ | ⟨_, hmap⟩
        · have hopen := hI.expired (by rw [hstage]; rfl) (Int.le_trans hafter hfrom) hget hvalue
          exact absurd (Int.lt_of_lt_of_le hlate hfrom) (Int.not_lt.mpr hopen)
        · rw [hnow]
          exact hmap
      · cases ha
  | release hstage hnow hto hmap hw huuids =>
      rcases hcall with ⟨_, _, ha⟩ | ⟨_, ha⟩
      · cases ha
      · cases ha
        rw [hstage] at hlease
        cases hlease
        rcases hmap with ⟨e, hget, hvalue, _⟩ | hmap
        · have hopen := hI.expired (by rw [hstage]; rfl) hto hget hvalue
          exact absurd hlate (Int.not_lt.mpr hopen)
        · rw [hnow]
          exact hmap
  | _ => rcases hcall with ⟨_, _, ha⟩ | ⟨_, ha⟩ <;> cases ha

/-! ## Prompt runs -/

/-- Nothing happens later than the TTL after the claim of a handler run in
flight, and a completion reaches the store. -/
structure Prompt (w : World S ρ) (a : Action ρ β) (w' : World S ρ) : Prop where
  inTime : ∀ r p, (w.stage r).inFlight? = some p → w'.now ≤ p.2 + IN_FLIGHT_TTL_MS
  reaches : ∀ r now later, a ≠ .complete r now later .notReached

/-- In a prompt run the record of a run in flight is its lease, that of a run
that succeeded is its response for 24 hours, and the runs that succeed with one
key are that far apart. -/
structure Guarding (L : Leases S) (requests : ρ → GuardedRequest sha256) (w : World S ρ) :
    Prop where
  held : ∀ r lease claimedAt, (w.stage r).inFlight? = some (lease, claimedAt) →
    w.found L (requests r).recordKey = some ⟨.inFlight lease, claimedAt + IN_FLIGHT_TTL_MS⟩
  kept : ∀ r claimedAt completedAt response,
    (w.stage r).success? = some (claimedAt, completedAt, response) →
    w.now ≤ completedAt + TTL_MS → w.found L (requests r).recordKey =
      some ⟨.completed (requests r).request.fingerprint response, completedAt + TTL_MS⟩
  apart : ∀ r r' claimedAt completedAt response lease claimedAt',
    (w.stage r).success? = some (claimedAt, completedAt, response) →
    (w.stage r').inFlight? = some (lease, claimedAt') →
    (requests r').recordKey = (requests r).recordKey → completedAt + TTL_MS < claimedAt'
  once : ∀ r r' claimedAt completedAt response claimedAt' completedAt' response', r' ≠ r →
    (w.stage r).success? = some (claimedAt, completedAt, response) →
    (w.stage r').success? = some (claimedAt', completedAt', response') →
    (requests r').recordKey = (requests r).recordKey →
    completedAt + TTL_MS < claimedAt' ∨ completedAt' + TTL_MS < claimedAt

section Keys

variable {L : Leases S} {requests : ρ → GuardedRequest sha256} {w w' : World S ρ}
  {a : Action ρ β} {r r' : ρ} {t : Date}

omit [DecidableEq ρ] in
/-- The lease of a run in flight is found as long as the step may last. -/
theorem Guarding.get_held (hI : Guarding L requests w) (hp : Prompt w a w') {lease : StoredInFlight}
    {claimedAt : Date} (h : (w.stage r).inFlight? = some (lease, claimedAt)) (ht : t ≤ w'.now) :
    (w.records L).get t (requests r).recordKey =
      some ⟨.inFlight lease, claimedAt + IN_FLIGHT_TTL_MS⟩ :=
  Expiring.get_later (hI.held r lease claimedAt h) (Int.le_trans ht (hp.inTime r _ h))

omit [DecidableEq ρ] in
/-- The response of a run is found for 24 hours. -/
theorem Guarding.get_kept (hI : Guarding L requests w) {claimedAt completedAt : Date}
    {response : StoredResponse β}
    (h : (w.stage r).success? = some (claimedAt, completedAt, response)) (hfrom : w.now ≤ t)
    (ht : t ≤ completedAt + TTL_MS) : (w.records L).get t (requests r).recordKey =
      some ⟨.completed (requests r).request.fingerprint response, completedAt + TTL_MS⟩ :=
  Expiring.get_later (hI.kept r claimedAt completedAt response h (Int.le_trans hfrom ht)) ht

omit [DecidableEq ρ] in
/-- Two runs in flight have different keys. -/
theorem Guarding.key_ne (hI : Guarding L requests w) (hL : LeasesApart L requests w)
    {lease lease' : StoredInFlight} {claimedAt claimedAt' : Date}
    (h : (w.stage r).inFlight? = some (lease, claimedAt))
    (h' : (w.stage r').inFlight? = some (lease', claimedAt')) (hne : r' ≠ r) :
    (requests r').recordKey ≠ (requests r).recordKey := by
  intro hkey
  have hfound := hI.held r' lease' claimedAt' h'
  rw [hkey, hI.held r lease claimedAt h, Option.some.injEq, Timed.mk.injEq] at hfound
  obtain ⟨hvalue, _⟩ := hfound
  cases hvalue
  exact hne (hL.distinct r' r lease claimedAt' claimedAt (Stage.lease?_of_inFlight? h')
    (Stage.lease?_of_inFlight? h))

omit [DecidableEq ρ] in
/-- Steps that change no record and let no run begin or succeed. -/
theorem Guarding.keep (hI : Guarding L requests w) (hp : Prompt w a w') (hto : w.now ≤ w'.now)
    (hmap : (w'.records L).AgreeFrom w'.now (w.records L))
    (hflight : ∀ r p, (w'.stage r).inFlight? = some p → (w.stage r).inFlight? = some p)
    (hsuccess : ∀ r p, (w'.stage r).success? = some p → (w.stage r).success? = some p) :
    Guarding L requests w' := by
  constructor
  · intro r lease claimedAt h
    rw [found_of_agree rfl hmap]
    exact hI.get_held hp (hflight r _ h) (Int.le_refl _)
  · intro r claimedAt completedAt response h hnow
    rw [found_of_agree rfl hmap]
    exact hI.get_kept (hsuccess r _ h) hto hnow
  · intro r r' claimedAt completedAt response lease claimedAt' h h'
    exact hI.apart r r' claimedAt completedAt response lease claimedAt' (hsuccess r _ h)
      (hflight r' _ h')
  · intro r r' claimedAt completedAt response claimedAt' completedAt' response' hne h h'
    exact hI.once r r' claimedAt completedAt response claimedAt' completedAt' response' hne
      (hsuccess r _ h) (hsuccess r' _ h')

/-- A claim that takes a key: no run with this key is in flight, and none has
succeeded in the last 24 hours. -/
theorem Guarding.take {later : Date} {lease : StoredInFlight} {x : Stage β}
    (hI : Guarding L requests w) (hp : Prompt w a w') (hnow : w'.now = later) (hfrom : w.now ≤ t)
    (hto : t ≤ later) (hget : (w.records L).get t (requests r).recordKey = none)
    (hmap : (w'.records L).AgreeFrom later ((w.records L).set (requests r).recordKey
      (.inFlight lease) (later + IN_FLIGHT_TTL_MS)))
    (hx : x = .running lease later ∨ ∃ answer, x = .answered answer)
    (hw : w'.stage = Function.update w.stage r x) : Guarding L requests w' := by
  have hflight : ∀ r' p, (w'.stage r').inFlight? = some p →
      r' = r ∧ p = (lease, later) ∨ (w.stage r').inFlight? = some p := by
    intro r' p h
    rcases stage_update_cases hw h with ⟨hr, hnew⟩ | ⟨_, hold⟩
    · rcases hx with rfl | ⟨answer, rfl⟩
      · exact Or.inl ⟨hr, (Option.some.inj hnew).symm⟩
      · cases hnew
    · exact Or.inr hold
  have hsuccess : ∀ r' p, (w'.stage r').success? = some p → (w.stage r').success? = some p := by
    intro r' p h
    rcases stage_update_cases hw h with ⟨_, hnew⟩ | ⟨_, hold⟩
    · rcases hx with rfl | ⟨answer, rfl⟩
      · cases hnew
      · cases hnew
    · exact hold
  have hidle : ∀ r' p, (w.stage r').inFlight? = some p →
      (requests r').recordKey ≠ (requests r).recordKey := by
    intro r' p h hkey
    have hheld := hI.get_held hp h (hnow ▸ hto)
    rw [hkey, hget] at hheld
    cases hheld
  have hover : ∀ r' claimedAt completedAt response,
      (w.stage r').success? = some (claimedAt, completedAt, response) →
      (requests r').recordKey = (requests r).recordKey → completedAt + TTL_MS < later := by
    intro r' claimedAt completedAt response h hkey
    by_contra hopen
    have hkept := hI.get_kept h hfrom (Int.le_trans hto (Int.not_lt.mp hopen))
    rw [hkey, hget] at hkept
    cases hkept
  constructor
  · intro r' lease' claimedAt h
    rw [found_of_agree hnow hmap]
    rcases hflight r' _ h with ⟨rfl, hnew⟩ | hold
    · cases hnew
      exact Expiring.get_set_self _ _ _ (Int.le_add_of_nonneg_right (by decide))
    · rw [Expiring.get_set_other _ _ (hidle r' _ hold)]
      exact hI.get_held hp hold (Int.le_of_eq hnow.symm)
  · intro r' claimedAt completedAt response h hopen
    rw [hnow] at hopen
    have hother : (requests r').recordKey ≠ (requests r).recordKey := fun hkey =>
      absurd (hover r' _ _ _ (hsuccess r' _ h) hkey) (Int.not_lt.mpr hopen)
    rw [found_of_agree hnow hmap, Expiring.get_set_other _ _ hother]
    exact hI.get_kept (hsuccess r' _ h) (Int.le_trans hfrom hto) hopen
  · intro r1 r2 claimedAt completedAt response lease' claimedAt' h1 h2 hkey
    rcases hflight r2 _ h2 with ⟨rfl, hnew⟩ | hold
    · cases hnew
      exact hover r1 _ _ _ (hsuccess r1 _ h1) hkey.symm
    · exact hI.apart r1 r2 claimedAt completedAt response lease' claimedAt' (hsuccess r1 _ h1) hold
        hkey
  · intro r1 r2 claimedAt completedAt response claimedAt' completedAt' response' hne h1 h2
    exact hI.once r1 r2 claimedAt completedAt response claimedAt' completedAt' response' hne
      (hsuccess r1 _ h1) (hsuccess r2 _ h2)

/-- A completion finds the lease of its run and replaces it by the response. -/
theorem Guarding.complete {later claimedAt : Date} {lease : StoredInFlight} {status : StatusCode}
    {body : β} (hI : Guarding L requests w) (hL : LeasesApart L requests w) (hp : Prompt w a w')
    (hstage : w.stage r = .ended lease claimedAt (.success status body)) (hnow : w'.now = later)
    (hto : w.now ≤ later)
    (hmap : (w'.records L).AgreeFrom later ((w.records L).set (requests r).recordKey
      (.completed (requests r).request.fingerprint ⟨status.code, body⟩) (later + TTL_MS)))
    (hw : w'.stage = Function.update w.stage r (.succeeded lease claimedAt later status body)) :
    Guarding L requests w' := by
  have hrun : (w.stage r).inFlight? = some (lease, claimedAt) := by
    rw [hstage]
    rfl
  have hflight : ∀ r' p, (w'.stage r').inFlight? = some p →
      r' ≠ r ∧ (w.stage r').inFlight? = some p :=
    fun r' p h => stage_update_of_none hw rfl h
  have hsuccess : ∀ r' p, (w'.stage r').success? = some p →
      r' = r ∧ p = (claimedAt, later, ⟨status.code, body⟩) ∨
        r' ≠ r ∧ (w.stage r').success? = some p := by
    intro r' p h
    rcases stage_update_cases hw h with ⟨hr, hnew⟩ | hold
    · exact Or.inl ⟨hr, (Option.some.inj hnew).symm⟩
    · exact Or.inr hold
  constructor
  · intro r' lease' claimedAt' h
    obtain ⟨hne, hold⟩ := hflight r' _ h
    rw [found_of_agree hnow hmap, Expiring.get_set_other _ _ (hI.key_ne hL hrun hold hne)]
    exact hI.get_held hp hold (Int.le_of_eq hnow.symm)
  · intro r' claimedAt' completedAt response h hopen
    rw [found_of_agree hnow hmap]
    rcases hsuccess r' _ h with ⟨rfl, hnew⟩ | ⟨hne, hold⟩
    · cases hnew
      exact Expiring.get_set_self _ _ _ (hnow ▸ hopen)
    · rw [hnow] at hopen
      have hkept := hI.get_kept hold hto hopen
      have hother : (requests r').recordKey ≠ (requests r).recordKey := by
        intro hkey
        rw [hkey, hI.get_held hp hrun (Int.le_of_eq hnow.symm)] at hkept
        cases hkept
      rw [Expiring.get_set_other _ _ hother]
      exact hkept
  · intro r1 r2 claimedAt1 completedAt response lease' claimedAt' h1 h2 hkey
    obtain ⟨hne, hold⟩ := hflight r2 _ h2
    rcases hsuccess r1 _ h1 with ⟨rfl, _⟩ | ⟨_, hold1⟩
    · exact absurd hkey (hI.key_ne hL hrun hold hne)
    · exact hI.apart r1 r2 claimedAt1 completedAt response lease' claimedAt' hold1 hold hkey
  · intro r1 r2 claimedAt1 completedAt response claimedAt' completedAt' response' hne h1 h2 hkey
    rcases hsuccess r1 _ h1 with ⟨rfl, hnew⟩ | ⟨_, hold1⟩
    · cases hnew
      rcases hsuccess r2 _ h2 with ⟨heq, _⟩ | ⟨_, hold2⟩
      · exact absurd heq hne
      · exact Or.inr (hI.apart r2 _ _ _ _ _ _ hold2 hrun hkey.symm)
    · rcases hsuccess r2 _ h2 with ⟨rfl, hnew⟩ | ⟨_, hold2⟩
      · cases hnew
        exact Or.inl (hI.apart r1 _ _ _ _ _ _ hold1 hrun hkey)
      · exact hI.once r1 r2 claimedAt1 completedAt response claimedAt' completedAt' response' hne
          hold1 hold2 hkey

/-- A release removes the lease of its own run only. -/
theorem Guarding.release {now claimedAt : Date} {lease : StoredInFlight} {error : String}
    {e : Timed Date (Stored β)} (hI : Guarding L requests w) (hL : LeasesApart L requests w)
    (hp : Prompt w a w') (hstage : w.stage r = .ended lease claimedAt (.failure error))
    (hnow : w'.now = now) (hto : w.now ≤ now)
    (hget : (w.records L).get now (requests r).recordKey = some e) (hvalue : e.value = .inFlight lease)
    (hmap : (w'.records L).AgreeFrom now ((w.records L).del (requests r).recordKey))
    (hw : w'.stage = Function.update w.stage r (.answered (.thrown error))) :
    Guarding L requests w' := by
  have hflight : ∀ r' p, (w'.stage r').inFlight? = some p →
      r' ≠ r ∧ (w.stage r').inFlight? = some p :=
    fun r' p h => stage_update_of_none hw rfl h
  have hsuccess : ∀ r' p, (w'.stage r').success? = some p → (w.stage r').success? = some p :=
    fun r' p h => (stage_update_of_none hw rfl h).2
  constructor
  · intro r' lease' claimedAt' h
    obtain ⟨hne, hold⟩ := hflight r' _ h
    have hheld := hI.get_held hp hold (Int.le_of_eq hnow.symm)
    have hother : (requests r').recordKey ≠ (requests r).recordKey := by
      intro hkey
      rw [hkey, hget, Option.some.injEq] at hheld
      rw [hheld] at hvalue
      cases hvalue
      exact hne (hL.distinct r' r lease claimedAt' claimedAt (Stage.lease?_of_inFlight? hold)
        (by rw [hstage]; rfl))
    rw [found_of_agree hnow hmap, Expiring.get_del_other _ hother]
    exact hheld
  · intro r' claimedAt' completedAt response h hopen
    rw [hnow] at hopen
    have hkept := hI.get_kept (hsuccess r' _ h) hto hopen
    have hother : (requests r').recordKey ≠ (requests r).recordKey := by
      intro hkey
      rw [hkey, hget, Option.some.injEq] at hkept
      rw [hkept] at hvalue
      cases hvalue
    rw [found_of_agree hnow hmap, Expiring.get_del_other _ hother]
    exact hkept
  · intro r1 r2 claimedAt1 completedAt response lease' claimedAt' h1 h2
    exact hI.apart r1 r2 claimedAt1 completedAt response lease' claimedAt' (hsuccess r1 _ h1)
      (hflight r2 _ h2).2
  · intro r1 r2 claimedAt1 completedAt response claimedAt' completedAt' response' hne h1 h2
    exact hI.once r1 r2 claimedAt1 completedAt response claimedAt' completedAt' response' hne
      (hsuccess r1 _ h1) (hsuccess r2 _ h2)

/-- A run that begins to end, or stops, keeps its lease or gives it up. -/
theorem Guarding.move {x : Stage β} (hI : Guarding L requests w) (hp : Prompt w a w')
    (hto : w.now ≤ w'.now) (hmap : (w'.records L).AgreeFrom w'.now (w.records L))
    (hw : w'.stage = Function.update w.stage r x)
    (hflight : ∀ p, x.inFlight? = some p → (w.stage r).inFlight? = some p)
    (hsuccess : x.success? = none) : Guarding L requests w' := by
  refine hI.keep hp hto hmap ?_ ?_
  · intro r' p h
    rcases stage_update_cases hw h with ⟨rfl, hnew⟩ | ⟨_, hold⟩
    · exact hflight p hnew
    · exact hold
  · exact fun r' p h => (stage_update_of_none hw hsuccess h).2

theorem guarding_step (hI : Guarding L requests w) (hL : LeasesApart L requests w)
    (h : step requests w a = some w') (hp : Prompt w a w') : Guarding L requests w' := by
  cases effect_of_step L h with
  | take hstage hnow hfrom hto hfresh hget hmap hx hw huuids =>
      exact hI.take hp hnow hfrom hto hget hmap hx hw
  | refused hstage hnow hto hanswer hmap hw huuids =>
      exact hI.move hp (hnow ▸ hto) (hnow ▸ hmap) hw (fun p h => by cases h) rfl
  | @finish r now claimedAt outcome lease hstage hto hw =>
      subst hw
      refine hI.move hp hto (Expiring.AgreeFrom.refl _ _) rfl ?_ rfl
      intro p h
      rw [hstage]
      cases outcome with
      | success status body => exact h
      | failure error => cases h
  | crash hstage hw =>
      subst hw
      exact hI.move hp (Int.le_refl _) (Expiring.AgreeFrom.refl _ _) rfl (fun p h => by cases h) rfl
  | complete hstage hnow hafter hfrom hto hmap hw huuids =>
      have hle := Int.le_trans hafter (Int.le_trans hfrom hto)
      rcases hmap with ⟨e, hget, hvalue, hmap⟩ | ⟨hmissed, _⟩
      · exact hI.complete hL hp hstage hnow hle hmap hw
      · rcases hmissed with rfl | hmissed
        · exact absurd rfl (hp.reaches _ _ _)
        · have hheld := hI.get_held hp (by rw [hstage]; rfl) (hnow ▸ hto)
          exact absurd rfl (hmissed _ hheld)
  | release hstage hnow hto hmap hw huuids =>
      rcases hmap with ⟨e, hget, hvalue, hmap⟩ | hmap
      · exact hI.release hL hp hstage hnow hto hget hvalue hmap hw
      · exact hI.move hp (hnow ▸ hto) (hnow ▸ hmap) hw (fun p h => by cases h) rfl

omit [DecidableEq ρ] in
theorem guarding_fresh (h : w.Fresh L) : Guarding L requests w := by
  have hflight : ∀ r p, (w.stage r).inFlight? ≠ some p := by
    intro r p hp
    rw [h.waiting r] at hp
    cases hp
  have hsuccess : ∀ r p, (w.stage r).success? ≠ some p := by
    intro r p hp
    rw [h.waiting r] at hp
    cases hp
  exact ⟨fun r _ _ hp => absurd hp (hflight r _), fun r _ _ _ hp => absurd hp (hsuccess r _),
    fun r _ _ _ _ _ _ hp => absurd hp (hsuccess r _),
    fun r _ _ _ _ _ _ _ _ hp => absurd hp (hsuccess r _)⟩

end Keys

/-! ## The contract of the interceptor -/

/-- Where a run of a scope has succeeded, every other run of the scope that is in
flight or has succeeded was claimed more than 24 hours after its completion, or
was itself completed more than 24 hours before its claim. -/
def World.OneSuccess (requests : ρ → GuardedRequest sha256) (w : World S ρ) : Prop :=
  ∀ r r' claimedAt completedAt response, r' ≠ r → (requests r').scope = (requests r).scope →
    (w.stage r).success? = some (claimedAt, completedAt, response) →
    (∀ lease claimedAt', (w.stage r').inFlight? = some (lease, claimedAt') →
      completedAt + TTL_MS < claimedAt') ∧
    (∀ claimedAt' completedAt' response',
      (w.stage r').success? = some (claimedAt', completedAt', response') →
      completedAt + TTL_MS < claimedAt' ∨ completedAt' + TTL_MS < claimedAt)

/-- A claim that gets its reply, within 24 hours after the completion of a run of
its scope: a request of the same payload is answered with the response of the
run, another one with 422. -/
def Replays (requests : ρ → GuardedRequest sha256) (w : World S ρ) (a : Action ρ β)
    (w' : World S ρ) : Prop :=
  ∀ r now later uuid, a = .claim r now later uuid .replied →
    ∀ r' claimedAt completedAt response, (requests r').scope = (requests r).scope →
      (w.stage r').success? = some (claimedAt, completedAt, response) →
      w'.now ≤ completedAt + TTL_MS →
      w'.stage r = .answered
        (if (requests r').request.fingerprint = (requests r).request.fingerprint
          then .replay response else .error keyReused)

/-- A claim that gets its reply while a run of its scope is in flight: the request
is answered with 409 or, for another payload, with 422. -/
def Conflicts (requests : ρ → GuardedRequest sha256) (w : World S ρ) (a : Action ρ β)
    (w' : World S ρ) : Prop :=
  ∀ r now later uuid, a = .claim r now later uuid .replied →
    ∀ r' p, (requests r').scope = (requests r).scope → (w.stage r').inFlight? = some p →
      w'.stage r = .answered (.error
        (if (requests r').request.fingerprint = (requests r).request.fingerprint
          then keyConflict else keyReused))

section Contract

variable {L : Leases S} {requests : ρ → GuardedRequest sha256} {w w' : World S ρ}
  {a : Action ρ β}

omit [DecidableEq ρ] in
theorem Guarding.oneSuccess (hI : Guarding L requests w) : w.OneSuccess requests := by
  intro r r' claimedAt completedAt response hne hscope h
  have hkey := recordKey_eq_of_scope hscope
  constructor
  · intro lease claimedAt' h'
    exact hI.apart r r' claimedAt completedAt response lease claimedAt' h h' hkey
  · intro claimedAt' completedAt' response' h'
    exact hI.once r r' claimedAt completedAt response claimedAt' completedAt' response' hne h h' hkey

/-- A claim that gets its reply is answered from a record that is found at its
key. -/
theorem answer_of_found (h : step requests w a = some w') {r : ρ} {now later : Date} {uuid : String}
    (ha : a = .claim r now later uuid .replied) {e : Timed Date (Stored β)}
    (hget : ∀ t, w.now ≤ t → t ≤ w'.now → (w.records L).get t (requests r).recordKey = some e) :
    w'.stage r = .answered
      (answerFromRecord (toRecord e.value) (requests r).request.fingerprint) := by
  subst ha
  cases effect_of_step L h with
  | take hstage hnow hfrom hto hfresh hfree hmap hx hw huuids =>
      rw [hget _ hfrom (hnow ▸ hto)] at hfree
      cases hfree
  | refused hstage hnow hto hanswer hmap hw huuids =>
      obtain ⟨t, e', hfrom, hto, he, rfl⟩ := hanswer rfl
      rw [hget t hfrom (hnow ▸ hto), Option.some.injEq] at he
      rw [hw, Function.update_self, he]

theorem replays_step (hI : Guarding L requests w) (h : step requests w a = some w') :
    Replays requests w a w' := by
  intro r now later uuid ha r' claimedAt completedAt response hscope hsuccess hopen
  have hget : ∀ t, w.now ≤ t → t ≤ w'.now → (w.records L).get t (requests r).recordKey =
      some ⟨.completed (requests r').request.fingerprint response, completedAt + TTL_MS⟩ := by
    intro t hfrom hto
    rw [← recordKey_eq_of_scope hscope]
    exact hI.get_kept hsuccess hfrom (Int.le_trans hto hopen)
  rw [answer_of_found h ha hget, toRecord, answerFromRecord_completed]

theorem conflicts_step (hI : Guarding L requests w) (hL : LeasesApart L requests w)
    (h : step requests w a = some w') (hp : Prompt w a w') : Conflicts requests w a w' := by
  rintro r now later uuid ha r' ⟨lease, claimedAt⟩ hscope hflight
  have hget : ∀ t, w.now ≤ t → t ≤ w'.now → (w.records L).get t (requests r).recordKey =
      some ⟨.inFlight lease, claimedAt + IN_FLIGHT_TTL_MS⟩ := by
    intro t _ hto
    rw [← recordKey_eq_of_scope hscope]
    exact hI.get_held hp hflight hto
  have hfingerprint := (hL.drawn r' lease claimedAt (Stage.lease?_of_inFlight? hflight)).2
  rw [answer_of_found h ha hget, toRecord, answerFromRecord_inFlight, hfingerprint]

end Contract

/-- Over either store, from a world in which no request has claimed anything: in
a prompt run at most one handler run of a scope succeeds within 24 hours of its
completion, repeats in that time are answered with its response or 422, and
claims during a run with 409 or 422.  In every run, prompt or not, a completion
or release of an expired claim changes no record. -/
theorem mutation_runs_at_most_once [DecidableEq β] (kind : SharedStateStore)
    (requests : ρ → GuardedRequest sha256) {w w' : World (kind.store : IdempotencyStore β) ρ}
    {as : List (Action ρ β)} (h0 : w.Fresh kind.leases)
    (hrun : (machine kind.store requests).run w as = some w') :
    ((machine kind.store requests).Along Prompt w as →
      w'.OneSuccess requests ∧ (machine kind.store requests).Along (Replays requests) w as ∧
        (machine kind.store requests).Along (Conflicts requests) w as) ∧
    (machine kind.store requests).Along (LateHarmless kind.leases) w as := by
  have hstep : ∀ (x : World (kind.store : IdempotencyStore β) ρ) (a : Action ρ β)
      (x' : World kind.store ρ),
      Guarding kind.leases requests x ∧ LeasesApart kind.leases requests x →
      step requests x a = some x' → Prompt x a x' →
      Guarding kind.leases requests x' ∧ LeasesApart kind.leases requests x' :=
    fun _ _ _ hI hs hp => ⟨guarding_step hI.1 hI.2 hs hp, leasesApart_step hI.2 hs⟩
  have h0' : Guarding kind.leases requests w ∧ LeasesApart kind.leases requests w :=
    ⟨guarding_fresh h0, leasesApart_fresh h0⟩
  constructor
  · intro hp
    have hend := Machine.invariant_along (M := machine kind.store requests) hstep h0' hp hrun
    refine ⟨hend.1.oneSuccess, ?_, ?_⟩
    · exact Machine.along_of_along (M := machine kind.store requests)
        (fun x a x' hI hs hp => ⟨hstep x a x' hI hs hp, replays_step hI.1 hs⟩) h0' hp
    · exact Machine.along_of_along (M := machine kind.store requests)
        (fun x a x' hI hs hp => ⟨hstep x a x' hI hs hp, conflicts_step hI.1 hI.2 hs hp⟩) h0' hp
  · exact Machine.along_of_along (M := machine kind.store requests) (P := fun _ _ _ => True)
      (fun x a x' hI hs _ => ⟨leasesApart_step hI hs, lateHarmless_step hI hs⟩)
      (leasesApart_fresh h0) (Machine.along_of_forall (fun _ _ _ _ _ => trivial) w)

/-! ## Four requests with one key -/

/-- Requests 0, 1 and 3 repeat a payload, request 2 has another one. -/
def exampleRequest (r : Fin 4) : Request where
  method := "POST"
  workspaceId := some "ws"
  path := "/conversations"
  idempotencyKey := some "key-0001"
  fingerprint := if r = 2 then "other" else "same"

def exampleRequests (r : Fin 4) : GuardedRequest id where
  request := exampleRequest r
  recordKey := "vynor:idem:ws:POST /conversations key-0001"
  guarded := by revert r; decide +kernel

def exampleWorld : World (RedisIdempotencyStore : IdempotencyStore String) (Fin 4) where
  now := 0
  store := fun _ => none
  stage := fun _ => .waiting
  uuids := []

/-- Requests 1 and 2 arrive while request 0 runs, and request 3 after it. -/
def exampleRun : List (Action (Fin 4) String) :=
  [.claim 0 0 0 "u0" .replied, .claim 1 10 10 "u1" .replied, .claim 2 20 20 "u2" .replied,
    .finish 0 30 (.success ⟨201, by decide⟩ "created"), .complete 0 40 40 .replied,
    .claim 3 50 50 "u3" .replied]

/-- A test for steps that are prompt. -/
def promptTest {S : IdempotencyStore String}
    (e : World S (Fin 4) × Action (Fin 4) String × World S (Fin 4)) : Bool :=
  ((List.finRange 4).all fun r =>
    (e.1.stage r).inFlight?.all fun p => e.2.2.now ≤ p.2 + IN_FLIGHT_TTL_MS) &&
  match e.2.1 with
  | .complete _ _ _ call => call ≠ .notReached
  | _ => true

theorem prompt_of_test {S : IdempotencyStore String}
    {e : World S (Fin 4) × Action (Fin 4) String × World S (Fin 4)} (h : promptTest e = true) :
    Prompt e.1 e.2.1 e.2.2 := by
  obtain ⟨w, a, w'⟩ := e
  rw [promptTest, Bool.and_eq_true] at h
  constructor
  · intro r p hp
    have hr := List.all_eq_true.mp h.1 r (List.mem_finRange r)
    rw [hp, Option.all_some] at hr
    exact of_decide_eq_true hr
  · rintro r now later rfl
    exact absurd rfl (of_decide_eq_true h.2)

/-- Request 1 is answered with 409, request 2 with 422, and request 3 with the
response of request 0. -/
theorem mutation_runs_at_most_once_example : ∃ w,
    (machine RedisIdempotencyStore exampleRequests).run exampleWorld exampleRun = some w ∧
    w.OneSuccess exampleRequests ∧
    (w.stage 1, w.stage 2, w.stage 3) = (.answered (.error keyConflict),
      .answered (.error keyReused), .answered (.replay ⟨201, "created"⟩)) := by
  have hrun : ((machine RedisIdempotencyStore exampleRequests).run exampleWorld exampleRun).map
      (fun w => (w.stage 1, w.stage 2, w.stage 3)) = some (.answered (.error keyConflict),
        .answered (.error keyReused), .answered (.replay ⟨201, "created"⟩)) := by decide
  obtain ⟨w, hw, hview⟩ := Option.map_eq_some_iff.mp hrun
  have hprompt : (machine RedisIdempotencyStore exampleRequests).Along Prompt exampleWorld
      exampleRun := by
    have htest : (((machine RedisIdempotencyStore exampleRequests).trace exampleWorld
        exampleRun).all promptTest) = true := by decide
    exact Machine.along_of_trace fun e he => prompt_of_test (List.all_eq_true.mp htest e he)
  have hfresh : exampleWorld.Fresh redisLeases :=
    ⟨fun _ => rfl, fun _ _ _ he => by cases he⟩
  exact ⟨w, hw, ((mutation_runs_at_most_once .redis exampleRequests hfresh hw).1 hprompt).1, hview⟩

end Vynor.Idempotency
