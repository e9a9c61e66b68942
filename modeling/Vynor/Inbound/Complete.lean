import Vynor.Inbound.Growth

/-!
# Nothing of a batch is lost

An attempt that writes `PROCESSED` or `IGNORED` has been through the whole list
of results.  What it has done with each is read off the history of the run.  A
message is stored, under its provider id.  A receipt was applied in this very
attempt (`Applied`), or it was given up after enough counted attempts, where
neither lookup found a message (`GivenUp`).

A result has the results after it as its place, so a batch may hold one receipt
twice.  `Progress` is the invariant of a run, between what it awaits and what it
has passed.
-/

namespace Vynor.Inbound.Core

open Lib (Table Machine)
open Journal (ProviderEvent ProviderEventStatus)

/-- The steps so far. -/
abbrev History := List (World × Action × World)

/-- A run stands at a result of its event, with these results after it. -/
def World.At (w : World) (i : CallId) (event : ProviderEvent) (result : InboundResult)
    (post : List InboundResult) : Prop :=
  ∃ tally, w.runs.call i = .handling event (result :: post) tally

/-- `applyReceipt` has resolved for this receipt. -/
def Applied (t : History) (i : CallId) (event : ProviderEvent) (receipt : DeliveryReceipt)
    (post : List InboundResult) : Prop :=
  ∃ x ∈ t, x.2.1 = .applied i ∧ x.1.At i event (.deliveryReceipt receipt) post

/-- `applyReceipt` began where no message had the provider id. -/
def NotFound (env : Env) (t : History) (i : CallId) (event : ProviderEvent)
    (receipt : DeliveryReceipt) (post : List InboundResult) : Prop :=
  ∃ x ∈ t, x.2.1 = .applyReceipt i ∧ x.1.At i event (.deliveryReceipt receipt) post ∧
    ∀ m ∈ x.1.core.db.messages.rows,
      MessageKey.provider (env.channelOf event).id receipt.providerMessageId ∉ m.keys

/-- Neither lookup found a message, and four attempts were counted. -/
def GivenUp (env : Env) (t : History) (i : CallId) (event : ProviderEvent)
    (receipt : DeliveryReceipt) (post : List InboundResult) : Prop :=
  NotFound env t i event receipt post ∧
    ∃ x ∈ t, x.2.1 = .matchInternal i ∧ x.1.At i event (.deliveryReceipt receipt) post ∧
      Counted x.1.runs.events event.id RECEIPT_MATCH_ATTEMPTS ∧
      ∀ m ∈ x.1.core.db.messages.rows,
        ¬ (m.id = receipt.providerMessageId ∧ m.providerAccountId = (env.channelOf event).id ∧
          m.direction = .outbound)

/-! ## The invariant of a run -/

/-- What a run has done with a result it has passed. -/
def Handled (env : Env) (t : History) (w : World) (i : CallId) (event : ProviderEvent)
    (tally : Tally) (post : List InboundResult) : InboundResult → Prop
  | .message data =>
      0 < tally.handled ∧
        (w.core.db.messages.find?
          (.provider (env.channelOf event).id data.providerMessageId)).isSome = true
  | .deliveryReceipt receipt =>
      Applied t i event receipt post ∨ GivenUp env t i event receipt post
  | .ignored _ => True

/-- The event, the results left and the tally of a run in or after its loop. -/
def loop? : Stage → Option (ProviderEvent × List InboundResult × Tally)
  | .handling event rest tally => some (event, rest, tally)
  | .settling event tally => some (event, [], tally)
  | _ => none

/-- A run in its loop has handled each result it has passed. -/
structure Loop (env : Env) (t : History) (w : World) (i : CallId) (event : ProviderEvent)
    (rest : List InboundResult) (tally : Tally) : Prop where
  suffix : rest <:+ env.results event.id
  handled : ∀ pre result post, env.results event.id = pre ++ result :: post →
    rest.length ≤ post.length → Handled env t w i event tally post result
  ignored : tally.ignored ≠ [] → env.results event.id ≠ []
  counted : Counted w.runs.events event.id (event.processingAttempts + 1)

/-- Where a run that has applied a receipt can stand. -/
def HasApplied : Stage → Prop
  | .idle => False
  | .starting _ => False
  | .discarding _ => False
  | .claiming _ => False
  | .normalizing _ => False
  | .handling _ _ tally => 0 < tally.handled
  | .settling _ tally => 0 < tally.handled
  | _ => True

/-- What is known of a run, its await and its history. -/
structure Progress (env : Env) (t : History) (w : World) (i : CallId) : Prop where
  loop : ∀ event rest tally, loop? (w.runs.call i) = some (event, rest, tally) →
    Loop env t w i event rest tally
  discarding : ∀ event, w.runs.call i = .discarding event → env.deleted event = true
  claiming : ∀ event, w.runs.call i = .claiming event →
    Counted w.runs.events event.id event.processingAttempts
  normalizing : ∀ event, w.runs.call i = .normalizing event →
    Counted w.runs.events event.id (event.processingAttempts + 1)
  ingest : ∀ j, w.await i = .ingest j → ∃ event data rest tally,
    w.runs.call i = .handling event (.message data :: rest) tally ∧ w.core.call j ≠ .idle ∧
      ∀ r, (w.core.call j).request? = some r → r.channel = env.channelOf event ∧ r.message = data
  receipt : ∀ c, w.await i = .receipt c → (w.runs.call i).calls = true
  matching : ∀ channelId receipt, w.await i = .receipt (.matching channelId receipt) →
    ∃ event rest tally, w.runs.call i = .handling event (.deliveryReceipt receipt :: rest) tally ∧
      channelId = (env.channelOf event).id ∧ NotFound env t i event receipt rest
  applied : (∃ x ∈ t, x.2.1 = .applied i) → HasApplied (w.runs.call i)

/-! ## Growth -/

/-- More history, and more that is stored and counted. -/
structure Grows (t : History) (w : World) (t' : History) (w' : World) : Prop where
  history : ∀ x ∈ t, x ∈ t'
  stored : ∀ k, (w.core.db.messages.find? k).isSome = true →
    (w'.core.db.messages.find? k).isSome = true
  counted : ∀ id n, Counted w.runs.events id n → Counted w'.runs.events id n

theorem grows_of_step {env : Env} {w w' : World} {a : Action} (t : History)
    (h : step env w a = some w') : Grows t w (t ++ [(w, a, w')]) w' where
  history := fun _ hx => List.mem_append_left _ hx
  stored := fun _ => stored_of_step h
  counted := fun _ _ => counted_of_step h

section Grow

variable {env : Env} {t t' : History} {w w' : World} {i : CallId} {event : ProviderEvent}
  {receipt : DeliveryReceipt} {post rest : List InboundResult} {tally : Tally}
  {result : InboundResult}

theorem Applied.grow (h : Applied t i event receipt post) (hgrows : Grows t w t' w') :
    Applied t' i event receipt post := by
  obtain ⟨x, hx, hrest⟩ := h
  exact ⟨x, hgrows.history x hx, hrest⟩

theorem NotFound.grow (h : NotFound env t i event receipt post) (hgrows : Grows t w t' w') :
    NotFound env t' i event receipt post := by
  obtain ⟨x, hx, hrest⟩ := h
  exact ⟨x, hgrows.history x hx, hrest⟩

theorem GivenUp.grow (h : GivenUp env t i event receipt post) (hgrows : Grows t w t' w') :
    GivenUp env t' i event receipt post := by
  obtain ⟨hnot, x, hx, hrest⟩ := h
  exact ⟨hnot.grow hgrows, x, hgrows.history x hx, hrest⟩

theorem Handled.grow (h : Handled env t w i event tally post result)
    (hgrows : Grows t w t' w') : Handled env t' w' i event tally post result := by
  cases result with
  | message data => exact ⟨h.1, hgrows.stored _ h.2⟩
  | deliveryReceipt receipt => exact Or.imp (·.grow hgrows) (·.grow hgrows) h
  | ignored => trivial

theorem Loop.grow (h : Loop env t w i event rest tally) (hgrows : Grows t w t' w') :
    Loop env t' w' i event rest tally where
  suffix := h.suffix
  handled := fun pre result post hpost hle => (h.handled pre result post hpost hle).grow hgrows
  ignored := h.ignored
  counted := hgrows.counted _ _ h.counted

/-- A result stays handled while the tally grows. -/
theorem Handled.mono {tally' : Tally} (h : Handled env t w i event tally post result)
    (hle : tally.handled ≤ tally'.handled) : Handled env t w i event tally' post result := by
  cases result with
  | message data => exact ⟨Nat.lt_of_lt_of_le h.1 hle, h.2⟩
  | deliveryReceipt receipt => exact h
  | ignored => trivial

/-- A run that has handled a result passes it. -/
theorem Loop.pass {tally' : Tally} (h : Loop env t w i event (result :: rest) tally)
    (hle : tally.handled ≤ tally'.handled)
    (hresult : Handled env t w i event tally' rest result) :
    Loop env t w i event rest tally' where
  suffix := (List.suffix_cons result rest).trans h.suffix
  handled := by
    intro pre r post hpost hlen
    rcases Nat.lt_or_eq_of_le hlen with hlt | heq
    · exact (h.handled pre r post hpost hlt).mono hle
    · obtain ⟨before, hbefore⟩ := h.suffix
      have htail : result :: rest = r :: post := by
        refine List.append_inj_right' (hbefore.trans hpost) ?_
        rw [List.length_cons, List.length_cons, heq]
      cases htail
      exact hresult
  ignored := fun _ hnil => by
    obtain ⟨before, hbefore⟩ := h.suffix
    rw [hnil, List.append_eq_nil_iff] at hbefore
    cases hbefore.2
  counted := h.counted

end Grow

/-! ## Steps of other runs -/

/-- A run that has not applied a receipt before a step has applied none after,
unless the step does it. -/
theorem applied_append {t : History} {w w' : World} {a : Action} {i : CallId}
    (ha : a.applies = false) (h : ∃ x ∈ t ++ [(w, a, w')], x.2.1 = .applied i) :
    ∃ x ∈ t, x.2.1 = .applied i := by
  obtain ⟨x, hx, hxa⟩ := h
  rcases List.mem_append.mp hx with hold | hnew
  · exact ⟨x, hold, hxa⟩
  · rw [List.mem_singleton.mp hnew] at hxa
    cases hxa
    cases ha

section Step

variable {env : Env} {t : History} {w w' : World} {a : Action} {i : CallId}

/-- A step of something else keeps what is known of a run. -/
theorem Progress.apart (hP : Progress env t w i) (h : step env w a = some w')
    (ha : a.run? ≠ some i) : Progress env (t ++ [(w, a, w')]) w' i := by
  obtain ⟨hcall, hawait⟩ := apart_of_step h ha
  have hgrows := grows_of_step t h
  constructor
  case loop =>
    intro event rest tally hloop
    rw [hcall] at hloop
    exact (hP.loop event rest tally hloop).grow hgrows
  case discarding =>
    intro event hs
    rw [hcall] at hs
    exact hP.discarding event hs
  case claiming =>
    intro event hs
    rw [hcall] at hs
    exact hgrows.counted _ _ (hP.claiming event hs)
  case normalizing =>
    intro event hs
    rw [hcall] at hs
    exact hgrows.counted _ _ (hP.normalizing event hs)
  case ingest =>
    intro j hj
    rw [hawait] at hj
    obtain ⟨event, data, rest, tally, hs, hbegun, hasked⟩ := hP.ingest j hj
    obtain ⟨hbegun', hkept⟩ := asked_of_step h hbegun
    exact ⟨event, data, rest, tally, hcall.trans hs, hbegun', fun r hr => hasked r (hkept r hr)⟩
  case receipt =>
    intro c hc
    rw [hawait] at hc
    rw [hcall]
    exact hP.receipt c hc
  case matching =>
    intro channelId receipt hc
    rw [hawait] at hc
    obtain ⟨event, rest, tally, hs, hchannel, hnot⟩ := hP.matching channelId receipt hc
    exact ⟨event, rest, tally, hcall.trans hs, hchannel, hnot.grow hgrows⟩
  case applied =>
    rintro ⟨x, hx, hxa⟩
    rw [hcall]
    rcases List.mem_append.mp hx with hold | hnew
    · exact hP.applied ⟨x, hold, hxa⟩
    · rw [List.mem_singleton.mp hnew] at hxa
      cases hxa
      exact absurd rfl ha

/-! ## Steps of the run -/

/-- A run outside its loop awaits no call. -/
theorem Progress.await_eq_none (hP : Progress env t w i) (hs : (w.runs.call i).calls = false) :
    w.await i = .none := by
  cases hawait : w.await i with
  | none => rfl
  | ingest j =>
      obtain ⟨event, data, rest, tally, hcall, _⟩ := hP.ingest j hawait
      rw [hcall] at hs
      cases hs
  | receipt c =>
      rw [hP.receipt c hawait] at hs
      cases hs

/-- What has to be known of a run that awaits no call. -/
theorem Progress.of_none (hawait : w.await i = .none)
    (hloop : ∀ event rest tally, loop? (w.runs.call i) = some (event, rest, tally) →
      Loop env t w i event rest tally)
    (hdiscarding : ∀ event, w.runs.call i = .discarding event → env.deleted event = true)
    (hclaiming : ∀ event, w.runs.call i = .claiming event →
      Counted w.runs.events event.id event.processingAttempts)
    (hnormalizing : ∀ event, w.runs.call i = .normalizing event →
      Counted w.runs.events event.id (event.processingAttempts + 1))
    (happlied : (∃ x ∈ t, x.2.1 = .applied i) → HasApplied (w.runs.call i)) :
    Progress env t w i where
  loop := hloop
  discarding := hdiscarding
  claiming := hclaiming
  normalizing := hnormalizing
  ingest := fun j hj => by
    rw [hawait] at hj
    cases hj
  receipt := fun c hc => by
    rw [hawait] at hc
    cases hc
  matching := fun _ _ hc => by
    rw [hawait] at hc
    cases hc
  applied := happlied

theorem over_facts {s : Stage} (hover : s.left = true ∨ s = .returned) :
    loop? s = none ∧ HasApplied s ∧
      ∀ event, s ≠ .discarding event ∧ s ≠ .claiming event ∧ s ≠ .normalizing event := by
  rcases hover with hleft | rfl
  · cases s with
    | catching | threw | crashed => exact ⟨rfl, trivial, fun _ => ⟨nofun, nofun, nofun⟩⟩
    | _ => cases hleft
  · exact ⟨rfl, trivial, fun _ => ⟨nofun, nofun, nofun⟩⟩

/-- A run that has come to its end, or to its `catch` block. -/
theorem Progress.of_over (hover : (w.runs.call i).left = true ∨ w.runs.call i = .returned)
    (hawait : w.await i = .none) : Progress env t w i := by
  obtain ⟨hloop, happlied, hs⟩ := over_facts hover
  refine .of_none hawait ?_ (fun event h => absurd h (hs event).1)
    (fun event h => absurd h (hs event).2.1) (fun event h => absurd h (hs event).2.2)
    (fun _ => happlied)
  intro event rest tally h
  rw [hloop] at h
  cases h

theorem loop_facts {s : Stage} {event : ProviderEvent} {rest : List InboundResult} {tally : Tally}
    (hs : s = .handling event rest tally ∨ s = .settling event tally ∧ rest = []) :
    loop? s = some (event, rest, tally) ∧ (0 < tally.handled → HasApplied s) ∧
      ∀ event, s ≠ .discarding event ∧ s ≠ .claiming event ∧ s ≠ .normalizing event := by
  rcases hs with rfl | ⟨rfl, rfl⟩
  · exact ⟨rfl, id, fun _ => ⟨nofun, nofun, nofun⟩⟩
  · exact ⟨rfl, id, fun _ => ⟨nofun, nofun, nofun⟩⟩

/-- A run that has passed a result goes on in its loop, or has come to the end
of it. -/
theorem Progress.of_loop {event : ProviderEvent} {rest : List InboundResult} {tally : Tally}
    (hs : w.runs.call i = .handling event rest tally ∨
      w.runs.call i = .settling event tally ∧ rest = [])
    (hloop : Loop env t w i event rest tally) (hawait : w.await i = .none)
    (happlied : (∃ x ∈ t, x.2.1 = .applied i) → 0 < tally.handled) : Progress env t w i := by
  obtain ⟨hat, hhandled, hne⟩ := loop_facts hs
  refine .of_none hawait ?_ (fun event h => absurd h (hne event).1)
    (fun event h => absurd h (hne event).2.1) (fun event h => absurd h (hne event).2.2)
    (fun h => hhandled (happlied h))
  intro event' rest' tally' h
  rw [hat] at h
  cases h
  exact hloop

end Step

section Own

variable {env : Env} {t t' : History} {w w' : World} {i : CallId} {event : ProviderEvent}
  {rest : List InboundResult} {tally : Tally} {result : InboundResult}

/-- A run that stays where it is and awaits something else. -/
theorem Progress.awaits (hP : Progress env t w i) (hgrows : Grows t w t' w')
    (hsame : (∃ x ∈ t', x.2.1 = .applied i) → ∃ x ∈ t, x.2.1 = .applied i)
    (hcall : w'.runs.call i = w.runs.call i)
    (hingest : ∀ j, w'.await i = .ingest j → ∃ event data rest tally,
      w.runs.call i = .handling event (.message data :: rest) tally ∧ w'.core.call j ≠ .idle ∧
        ∀ r, (w'.core.call j).request? = some r →
          r.channel = env.channelOf event ∧ r.message = data)
    (hreceipt : ∀ c, w'.await i = .receipt c → (w.runs.call i).calls = true)
    (hmatching : ∀ channelId receipt, w'.await i = .receipt (.matching channelId receipt) →
      ∃ event rest tally,
        w.runs.call i = .handling event (.deliveryReceipt receipt :: rest) tally ∧
          channelId = (env.channelOf event).id ∧ NotFound env t' i event receipt rest) :
    Progress env t' w' i := by
  constructor <;> rw [hcall]
  case loop => exact fun event rest tally hloop => (hP.loop event rest tally hloop).grow hgrows
  case discarding => exact hP.discarding
  case claiming => exact fun event hs => hgrows.counted _ _ (hP.claiming event hs)
  case normalizing => exact fun event hs => hgrows.counted _ _ (hP.normalizing event hs)
  case ingest => exact hingest
  case receipt => exact hreceipt
  case matching => exact hmatching
  case applied => exact fun h => hP.applied (hsame h)

/-- A run outside the loop that moves to a point outside the loop. -/
theorem Progress.outside {s : Stage} (hP : Progress env t w i)
    (hsame : (∃ x ∈ t', x.2.1 = .applied i) → ∃ x ∈ t, x.2.1 = .applied i)
    (hfresh : ¬ HasApplied (w.runs.call i)) (hawait : w'.await i = .none)
    (hcall : w'.runs.call i = s) (hloop : loop? s = none)
    (hdiscarding : ∀ event, s = .discarding event → env.deleted event = true)
    (hclaiming : ∀ event, s = .claiming event →
      Counted w'.runs.events event.id event.processingAttempts)
    (hnormalizing : ∀ event, s = .normalizing event →
      Counted w'.runs.events event.id (event.processingAttempts + 1)) :
    Progress env t' w' i := by
  subst hcall
  refine .of_none hawait ?_ hdiscarding hclaiming hnormalizing ?_
  · intro event rest tally h
    rw [hloop] at h
    cases h
  · exact fun h => absurd (hP.applied (hsame h)) hfresh

/-- A run that passes a result. -/
theorem Progress.passes {tally' : Tally} (hP : Progress env t w i) (hgrows : Grows t w t' w')
    (hcall : w.runs.call i = .handling event (result :: rest) tally)
    (hcall' : w'.runs.call i = .handling event rest tally')
    (happlied : (∃ x ∈ t', x.2.1 = .applied i) → 0 < tally'.handled) (hawait : w'.await i = .none)
    (hle : tally.handled ≤ tally'.handled)
    (hresult : Handled env t' w' i event tally' rest result) : Progress env t' w' i := by
  have hloop := (hP.loop event (result :: rest) tally (by rw [hcall]; rfl)).grow hgrows
  exact .of_loop (Or.inl hcall') (hloop.pass hle hresult) hawait happlied

/-- The loop begins with the whole list. -/
theorem loop_begins (hcounted : Counted w.runs.events event.id (event.processingAttempts + 1)) :
    Loop env t w i event (env.results event.id) {} where
  suffix := List.suffix_refl _
  handled := by
    intro pre result post hpost hlen
    rw [hpost, List.length_append, List.length_cons] at hlen
    exact absurd hlen (by omega)
  ignored := fun h => absurd rfl h
  counted := hcounted

/-- An ingest that has resolved leaves the message of its result stored. -/
theorem stored_of_ingested (hP : Progress env t w i) (hnamed : Conversations.Named w.core)
    {j : Conversations.CallId} {data : Conversations.InboundMessage}
    {request : Conversations.IngestRequest} {answer : Conversations.IngestResult}
    (hawait : w.await i = .ingest j)
    (hcall : w.runs.call i = .handling event (.message data :: rest) tally)
    (hj : w.core.call j = .ingested request answer) :
    (w.core.db.messages.find?
      (.provider (env.channelOf event).id data.providerMessageId)).isSome = true := by
  obtain ⟨event', data', rest', tally', hcall', _, hasked⟩ := hP.ingest j hawait
  rw [hcall] at hcall'
  cases hcall'
  obtain ⟨hchannel, hmessage⟩ := hasked request (by rw [hj]; rfl)
  obtain ⟨m, hm⟩ := hnamed j request answer hj
  rw [Conversations.IngestRequest.key, hchannel, hmessage] at hm
  rw [hm]
  rfl

/-- A receipt that is still unmatched was not found by its first lookup. -/
theorem notFound_of_start {receipt : DeliveryReceipt}
    (hcall : w.runs.call i = .handling event (.deliveryReceipt receipt :: rest) tally)
    (hx : (w, Action.applyReceipt i, w') ∈ t)
    {c : Id} {r : DeliveryReceipt}
    (hstart : Delivery.startReceipt w.delivery (env.channelOf event).id receipt = .matching c r) :
    c = (env.channelOf event).id ∧ r = receipt ∧ NotFound env t i event receipt rest := by
  unfold Delivery.startReceipt at hstart
  split at hstart
  · split at hstart <;> cases hstart
  · split at hstart
    · cases hstart
    next hnone =>
      cases hstart
      exact ⟨rfl, rfl, _, hx, rfl, ⟨tally, hcall⟩, Table.find?_eq_none.mp hnone⟩

/-- The second lookup that finds nothing. -/
theorem unmatched_of_threw {channelId : Id} {receipt : DeliveryReceipt}
    (h : Delivery.matchInternal w.delivery channelId receipt = .threw) :
    ∀ m ∈ w.core.db.messages.rows,
      ¬ (m.id = receipt.providerMessageId ∧ m.providerAccountId = channelId ∧
        m.direction = .outbound) := by
  rintro m hm ⟨hid, hmine⟩
  have hfind : w.core.db.messages.find? (.id receipt.providerMessageId) = some m :=
    Table.find?_eq_some.mpr ⟨hm, Message.id_mem_keys.mpr hid⟩
  simp only [Delivery.matchInternal, World.delivery, hfind, if_pos hmine] at h
  cases h

/-- A write leads a run out of the loop, to its end or from the claim to the
normalization. -/
theorem Progress.writes {next s : Stage} {status : ProviderEventStatus} {now : Date}
    (hP : Progress env t w i)
    (hsame : (∃ x ∈ t', x.2.1 = .applied i) → ∃ x ∈ t, x.2.1 = .applied i)
    (hwrite : (w.runs.call i).write? = some (event, status, next))
    (htrans : transitionProviderEventStatus w.runs.events event.id status (w.runs.call i).lastError
      (w.runs.call i).incrementAttempts now = some w'.runs.events)
    (hs : s = next ∨ s.left = true) (hawait : w'.await i = w.await i)
    (hcall : w'.runs.call i = s) : Progress env t' w' i := by
  have hnone : w'.await i = .none := by
    rw [hawait]
    refine hP.await_eq_none ?_
    cases hstage : w.runs.call i with
    | handling =>
        rw [hstage] at hwrite
        cases hwrite
    | _ => rfl
  by_cases hover : s.left = true ∨ s = .returned
  · exact .of_over (by rwa [hcall]) hnone
  · obtain ⟨hleft, hreturned⟩ := not_or.mp hover
    rcases hs with rfl | hs
    · cases hstage : w.runs.call i with
      | claiming e =>
          rw [hstage] at hwrite htrans
          cases hwrite
          refine hP.outside hsame (by rw [hstage]; exact id) hnone hcall rfl (fun _ h => by cases h)
            (fun _ h => by cases h) ?_
          rintro _ ⟨⟩
          exact (hP.claiming event hstage).increment htrans
      | discarding | settling =>
          rw [hstage] at hwrite
          cases hwrite
          exact absurd rfl hreturned
      | catching e error =>
          rw [hstage] at hwrite
          cases hwrite
          split at hleft
          · exact absurd rfl hleft
          next hretry =>
            rw [if_neg hretry] at hreturned
            exact absurd rfl hreturned
      | _ =>
          rw [hstage] at hwrite
          cases hwrite
    · exact absurd hs hleft

/-- A run that reads its event leaves it to others, or takes it as it is. -/
theorem Progress.reads {eventId : Id} (hP : Progress env t w i)
    (hsame : (∃ x ∈ t', x.2.1 = .applied i) → ∃ x ∈ t, x.2.1 = .applied i)
    (hcall : w.runs.call i = .starting eventId)
    (hcall' : w'.runs.call i = afterRead ((w.runs.events.find? (.id eventId)).any env.deleted)
      (w.runs.events.find? (.id eventId)))
    (hevents : w'.runs.events = w.runs.events) (hawait : w'.await i = w.await i) :
    Progress env t' w' i := by
  have hfresh : ¬ HasApplied (w.runs.call i) := by
    rw [hcall]
    exact id
  have hnone : w'.await i = .none := hawait.trans (hP.await_eq_none (by rw [hcall]; rfl))
  rcases afterRead_cases ((w.runs.events.find? (.id eventId)).any env.deleted)
    (w.runs.events.find? (.id eventId)) with ⟨hr, _⟩ | ⟨e, hfind, hopen, hr⟩
  · exact .of_over (Or.inr (hcall'.trans hr)) hnone
  · have hid := id_of_find? hfind
    rcases hr with hr | hr
    · refine hP.outside hsame hfresh hnone (hcall'.trans hr) rfl ?_ (fun _ h => by cases h)
        (fun _ h => by cases h)
      rintro _ ⟨⟩
      rw [hfind, afterRead, if_neg (by simp [hopen])] at hr
      split at hr
      · assumption
      · cases hr
    · refine hP.outside hsame hfresh hnone (hcall'.trans hr) rfl (fun _ h => by cases h) ?_
        (fun _ h => by cases h)
      rintro _ ⟨⟩
      rw [hevents]
      exact ⟨e, hid ▸ hfind, Nat.le_refl _⟩

/-- A run whose receipt has no message retries, or passes it after the attempts
that `RECEIPT_MATCH_ATTEMPTS` allows. -/
theorem Progress.unmatches {s : Stage} {channelId : Id} {receipt : DeliveryReceipt}
    (hP : Progress env t w i) (hgrows : Grows t w t' w')
    (hsame : (∃ x ∈ t', x.2.1 = .applied i) → ∃ x ∈ t, x.2.1 = .applied i)
    (hlast : (w, Action.matchInternal i, w') ∈ t')
    (hawait : w.await i = .receipt (.matching channelId receipt))
    (hthrew : Delivery.matchInternal w.delivery channelId receipt = .threw)
    (hs : afterAnswer (w.runs.call i) .unmatched = some s) (hcall' : w'.runs.call i = s)
    (hnone : w'.await i = .none) : Progress env t' w' i := by
  obtain ⟨event, rest, tally, hcall, rfl, hnot⟩ := hP.matching channelId receipt hawait
  have hloop := hP.loop event (.deliveryReceipt receipt :: rest) tally (by rw [hcall]; rfl)
  rw [hcall] at hs
  injection hs with hs
  unfold afterUnmatched at hs
  split at hs
  · exact .of_over (Or.inl (by rw [hcall', ← hs]; rfl)) hnone
  next hcount =>
    have happlied := fun h => hP.applied (hsame h)
    rw [hcall] at happlied
    refine hP.passes hgrows hcall (hcall'.trans hs.symm) happlied hnone (Nat.le_refl _)
      (Or.inr ⟨hnot.grow hgrows, _, hlast, rfl, ⟨tally, hcall⟩, ?_, ?_⟩)
    · obtain ⟨e, he, hle⟩ := hloop.counted
      exact ⟨e, he, Nat.le_trans (Nat.le_of_not_lt hcount) hle⟩
    · exact unmatched_of_threw hthrew

/-- What is known of a run is kept by its own steps. -/
theorem Progress.own {a : Action} (hP : Progress env t w i) (hnamed : Conversations.Named w.core)
    (h : step env w a = some w') (ha : a.run? = some i) :
    Progress env (t ++ [(w, a, w')]) w' i := by
  have hgrows := grows_of_step t h
  have hsame : a.applies = false → (∃ x ∈ t ++ [(w, a, w')], x.2.1 = .applied i) →
      ∃ x ∈ t, x.2.1 = .applied i := applied_append
  have hlast : (w, a, w') ∈ t ++ [(w, a, w')] := List.mem_append_right _ (List.mem_singleton.mpr rfl)
  cases effect_of_step h with
  | journal | others | core => cases ha
  | start hidle =>
      cases ha
      exact hP.outside (hsame rfl) (by rw [hidle]; exact id)
        (hP.await_eq_none (by rw [hidle]; rfl)) (moves_call_self w _) rfl
        (fun _ h => by cases h) (fun _ h => by cases h) (fun _ h => by cases h)
  | @read _ eventId hcall =>
      cases ha
      exact hP.reads (hsame rfl) hcall (Runs.World.setCall_self ..) rfl rfl
  | @normalize _ event hcall =>
      cases ha
      have hnot := fun h => hP.applied (hsame rfl h)
      rw [hcall] at hnot
      exact .of_loop (Or.inl (moves_call_self w _))
        (loop_begins (hgrows.counted _ _ (hP.normalizing event hcall)))
        (hP.await_eq_none (by rw [hcall]; rfl)) (fun h => (hnot h).elim)
  | @ingest _ j messageId event data rest tally core hcall hcore =>
      cases ha
      obtain ⟨hbegun, hasked⟩ := Conversations.begins_of_ingest hcore
      refine hP.awaits hgrows (hsame rfl) rfl ?_ ?_ ?_
      · intro j' hj'
        rw [setAwait_self_await] at hj'
        cases hj'
        refine ⟨event, data, rest, tally, hcall, hbegun, fun r hr => ?_⟩
        rw [hasked r hr]
        exact ⟨rfl, rfl⟩
      · intro c hc
        rw [setAwait_self_await] at hc
        cases hc
      · intro _ _ hc
        rw [setAwait_self_await] at hc
        cases hc
  | @stored _ j event data rest tally request answer hawait hcall hj =>
      cases ha
      refine hP.passes hgrows hcall (moves_call_self _ _) (fun _ => Nat.succ_pos _)
        (setAwait_self_await w .none) (Nat.le_succ _) ⟨Nat.succ_pos _, ?_⟩
      exact stored_of_ingested hP hnamed hawait hcall hj
  | @applyReceipt _ event receipt rest tally hcall =>
      cases ha
      refine hP.awaits hgrows (hsame rfl) rfl ?_ ?_ ?_
      · intro j hj
        rw [setAwait_self_await] at hj
        cases hj
      · intro _ _
        rw [hcall]
        rfl
      · intro c r hc
        rw [setAwait_self_await] at hc
        injection hc with hc
        obtain ⟨rfl, rfl, hnot⟩ := notFound_of_start hcall hlast hc
        exact ⟨event, rest, tally, hcall, rfl, hnot⟩
  | @unmatched _ channelId receipt s hawait hthrew hs =>
      cases ha
      exact hP.unmatches hgrows (hsame rfl) hlast hawait hthrew hs (moves_call_self _ s)
        (setAwait_self_await w .none)
  | @receipt _ _ c c' messages hi happlies _ hawait hne _ =>
      rw [hi] at ha
      cases ha
      refine hP.awaits hgrows (hsame happlies) rfl ?_ (fun _ _ => hP.receipt c hawait) ?_
      · intro j hj
        rw [setAwait_self_await] at hj
        cases hj
      · intro channelId receipt hc
        rw [setAwait_self_await] at hc
        injection hc with hc
        exact absurd hc (hne channelId receipt)
  | @applied _ event receipt rest tally hcall =>
      cases ha
      exact hP.passes hgrows hcall (moves_call_self _ _) (fun _ => Nat.succ_pos _)
        (setAwait_self_await w .none) (Nat.le_succ _) (Or.inl ⟨_, hlast, rfl, tally, hcall⟩)
  | @passed _ event reason rest tally hcall =>
      cases ha
      have happlied := fun h => hP.applied (hsame rfl h)
      rw [hcall] at happlied
      exact hP.passes hgrows hcall (moves_call_self _ _) happlied
        (hP.await_eq_none (by rw [hcall]; rfl)) (Nat.le_refl _) trivial
  | @ended _ event tally hcall =>
      cases ha
      have happlied := fun h => hP.applied (hsame rfl h)
      rw [hcall] at happlied
      exact .of_loop (Or.inr ⟨moves_call_self w _, rfl⟩)
        ((hP.loop event [] tally (by rw [hcall]; rfl)).grow hgrows)
        (hP.await_eq_none (by rw [hcall]; rfl)) happlied
  | @wrote _ _ now event status next s events hi hwrites hwrite htrans hs =>
      rw [hi] at ha
      cases ha
      have happlies : a.applies = false := by
        cases a with
        | write | lose => rfl
        | _ => cases hwrites
      exact hP.writes (hsame happlies) hwrite htrans hs rfl (Runs.World.setCall_self _ _ s)
  | @left _ _ s x hi _ _ hleft hx =>
      rw [hi] at ha
      cases ha
      refine .of_over (Or.inl (by rwa [moves_call_self])) ?_
      rcases hx with rfl | ⟨rfl, hstage⟩
      · exact setAwait_self_await w .none
      · exact (setAwait_self_await w _).trans (hP.await_eq_none hstage)

end Own

/-! ## Runs -/

/-- Before its first step nothing is known of a run. -/
theorem progress_of_idle {env : Env} {w : World} (h : w.Idle) (i : CallId) :
    Progress env [] w i := by
  have hcall := h.runs i
  refine .of_none (h.await i) ?_ ?_ ?_ ?_ ?_ <;> rw [hcall]
  · exact fun _ _ _ => nofun
  · exact fun _ => nofun
  · exact fun _ => nofun
  · exact fun _ => nofun
  · rintro ⟨x, hx, _⟩
    cases hx

theorem named_of_idle {w : World} (h : w.Idle) : Conversations.Named w.core := by
  intro j request result hj
  rw [h.core j] at hj
  cases hj

/-- What is known of every run, in every state that is reached. -/
theorem progress_of_run {env : Env} {w w' : World} {as : List Action} (h : w.Idle)
    (hr : (machine env).run w as = some w') (i : CallId) :
    Progress env ((machine env).trace w as) w' i := by
  have hboth := Machine.invariant_trace (M := machine env)
    (J := fun t w => Conversations.Named w.core ∧ ∀ i, Progress env t w i) ?_
    ⟨named_of_idle h, progress_of_idle h⟩ hr
  · exact hboth.2 i
  · rintro t w a w' ⟨hnamed, hP⟩ hs
    refine ⟨named_of_step hs hnamed, fun i => ?_⟩
    by_cases ha : a.run? = some i
    · exact (hP i).own hnamed hs ha
    · exact (hP i).apart hs ha

/-- What an attempt that ends a batch has done with it. -/
structure Completed (env : Env) (t : History) (w : World) (i : CallId) (event : ProviderEvent)
    (status : ProviderEventStatus) : Prop where
  written : statusOf? w.runs.events event.id = some status
  messages : ∀ data, InboundResult.message data ∈ env.results event.id →
    w.core.db.messages.rows.countP (fun m =>
      MessageKey.provider (env.channelOf event).id data.providerMessageId ∈ m.keys) = 1
  receipts : ∀ pre receipt post, env.results event.id = pre ++ .deliveryReceipt receipt :: post →
    Applied t i event receipt post ∨ GivenUp env t i event receipt post
  ignored : status = .ignored →
    (∀ data, InboundResult.message data ∉ env.results event.id) ∧
      (∀ x ∈ t, x.2.1 ≠ .applied i) ∧
      ∃ result ∈ env.results event.id, (∃ reason, result = .ignored reason) ∨
        ∃ receipt post, result = .deliveryReceipt receipt ∧ GivenUp env t i event receipt post

/-- Exactly one row has a key under which a row is found. -/
theorem countP_of_isSome {t : Messages} {k : MessageKey} (h : (t.find? k).isSome = true) :
    t.rows.countP (fun m => k ∈ m.keys) = 1 := by
  obtain ⟨m, hm⟩ := Option.isSome_iff_exists.mp h
  obtain ⟨hmem, hk⟩ := Table.find?_eq_some.mp hm
  refine Nat.le_antisymm (Table.countP_key_le_one t k) ?_
  exact List.countP_pos_iff.mpr ⟨m, hmem, by simpa using hk⟩

section Settling

variable {env : Env} {t : History} {w : World} {i : CallId} {event : ProviderEvent} {tally : Tally}

/-- Every result is behind a run that settles. -/
theorem Loop.handled_of_mem (h : Loop env t w i event [] tally) {result : InboundResult}
    (hresult : result ∈ env.results event.id) :
    ∃ post, Handled env t w i event tally post result := by
  obtain ⟨pre, post, hpost⟩ := List.append_of_mem hresult
  exact ⟨post, h.handled pre result post hpost (Nat.zero_le _)⟩

theorem Tally.outcome_eq_ignored (h : tally.outcome = .ignored) :
    tally.handled = 0 ∧ tally.ignored ≠ [] := by
  unfold Tally.outcome at h
  split at h
  · cases h
  next hnot =>
    obtain ⟨hhandled, hignored⟩ := not_or.mp hnot
    exact ⟨Nat.eq_zero_of_not_pos hhandled, hignored⟩

/-- A batch that is ignored has no message and no receipt that was applied. -/
theorem Progress.ignored_of_settling (hP : Progress env t w i)
    (hcall : w.runs.call i = .settling event tally) (h : tally.outcome = .ignored) :
    (∀ data, InboundResult.message data ∉ env.results event.id) ∧
      (∀ x ∈ t, x.2.1 ≠ .applied i) ∧
      ∃ result ∈ env.results event.id, (∃ reason, result = .ignored reason) ∨
        ∃ receipt post, result = .deliveryReceipt receipt ∧
          GivenUp env t i event receipt post := by
  have hloop := hP.loop event [] tally (by rw [hcall]; rfl)
  obtain ⟨hnone, hsome⟩ := Tally.outcome_eq_ignored h
  have happlied : ∀ x ∈ t, x.2.1 ≠ .applied i := by
    intro x hx hxa
    have hpos := hP.applied ⟨x, hx, hxa⟩
    rw [hcall] at hpos
    exact absurd hnone (Nat.ne_of_gt hpos)
  refine ⟨?_, happlied, ?_⟩
  · intro data hdata
    obtain ⟨post, hpos, _⟩ := hloop.handled_of_mem hdata
    exact absurd hnone (Nat.ne_of_gt hpos)
  · obtain ⟨result, hresult⟩ := List.exists_mem_of_ne_nil _ (hloop.ignored hsome)
    obtain ⟨post, hhandled⟩ := hloop.handled_of_mem hresult
    refine ⟨result, hresult, ?_⟩
    cases result with
    | message data => exact absurd hnone (Nat.ne_of_gt hhandled.1)
    | deliveryReceipt receipt =>
        rcases hhandled with ⟨x, hx, hxa, _⟩ | hgivenUp
        · exact absurd hxa (happlied x hx)
        · exact Or.inr ⟨receipt, post, rfl, hgivenUp⟩
    | ignored reason => exact Or.inl ⟨reason, rfl⟩

end Settling

/-- Inbound processing is complete: in every run, an attempt that sets an event
of a channel that is not deleted to `PROCESSED` or `IGNORED` has stored every
message, and has applied every receipt or given it up. -/
theorem processing_is_complete {env : Env} {w0 w1 w2 : World} {as : List Action} {a : Action}
    {i : CallId} {event : ProviderEvent} {status : ProviderEventStatus} {next : Stage}
    (h0 : w0.Idle) (hr : (machine env).run w0 as = some w1)
    (hs : (machine env).step w1 a = some w2) (ha : a.run? = some i) (hwrites : a.writes = true)
    (hwrite : (w1.runs.call i).write? = some (event, status, next))
    (hfinished : finished status = true) (hlive : (env.channelOf event).deletedAt = none) :
    Completed env ((machine env).trace w0 as) w2 i event status := by
  have hP := progress_of_run h0 hr i
  cases hcall : w1.runs.call i with
  | discarding e =>
      rw [hcall] at hwrite
      cases hwrite
      have hdeleted := hP.discarding event hcall
      rw [Env.deleted, hlive] at hdeleted
      cases hdeleted
  | claiming e =>
      rw [hcall] at hwrite
      cases hwrite
      cases hfinished
  | catching e error =>
      rw [hcall] at hwrite
      cases hwrite
      split at hfinished <;> cases hfinished
  | settling e tally =>
      rw [hcall] at hwrite
      cases hwrite
      have hloop := hP.loop event [] tally (by rw [hcall]; rfl)
      constructor
      case written => exact written_of_step hs ha hwrites (by rw [hcall]; rfl)
      case messages =>
        intro data hdata
        obtain ⟨post, _, hstored⟩ := hloop.handled_of_mem hdata
        exact countP_of_isSome (stored_of_step hs hstored)
      case receipts =>
        intro pre receipt post hpost
        exact hloop.handled pre _ post hpost (Nat.zero_le _)
      case ignored => exact hP.ignored_of_settling hcall
  | _ =>
      rw [hcall] at hwrite
      cases hwrite

/-! ## An example -/

/-- An event that was tried three times. -/
def batchEvent : ProviderEvent where
  id := "e1"
  workspaceId := "workspace"
  providerAccountId := "channel"
  provider := "custom-api"
  channelType := .api
  providerEventKey := "k1"
  isFingerprinted := false
  payload := []
  processingAttempts := 3
  retentionDays := 30
  purgeAfter := 0
  correlationId := none

/-- A receipt for a message that is not known. -/
def unknownReceipt : DeliveryReceipt where
  providerMessageId := "unknown"
  recipientIdentifier := "visitor"
  status := .read
  timestamp := 2

/-- A message, a receipt and a result that is ignored. -/
def batchEnv : Env where
  channel := fun _ => exampleChannel
  results := fun _ =>
    [.message (Conversations.exampleRequest "e1" "p1" 1).message, .deliveryReceipt unknownReceipt,
      .ignored "Sticker."]

def World.init : World :=
  ⟨Runs.World.init, Conversations.World.init, ⟨fun _ => none, fun _ _ => none, fun _ => none⟩,
    fun _ => .none⟩

/-- The fourth attempt, up to its last write. -/
def batchRun : List Action :=
  [.journal batchEvent, .start 0 "e1", .read 0, .write 0 1, .normalize 0, .ingest 0 0 "e1",
    .core (.lock 0), .core (.readSender 0 1 "contact" "identity"), .core (.readOpen 0 []),
    .core (.readReplyTarget 0), .core (.commitIngest 0 "c" 2 none), .stored 0, .applyReceipt 0,
    .matchInternal 0, .pass 0, .pass 0]

/-- Where the fourth attempt then stands. -/
def batchSettles : Stage :=
  .settling batchEvent ⟨1, 1, ["Receipt for a message VYNOR did not send.", "Sticker."]⟩

theorem processing_is_complete_batch : ∃ w1 w2,
    (machine batchEnv).run World.init batchRun = some w1 ∧
      (machine batchEnv).step w1 (.write 0 3) = some w2 ∧
      Completed batchEnv ((machine batchEnv).trace World.init batchRun) w2 0 batchEvent
        .processed := by
  have hlast : (((machine batchEnv).run World.init batchRun).bind fun w1 =>
      ((machine batchEnv).step w1 (.write 0 3)).map fun _ => w1.runs.call 0)
        = some batchSettles := by decide
  obtain ⟨w1, w2, h1, h2, hcall⟩ :=
    Machine.exists_last (f := fun (w1 _ : World) => w1.runs.call 0) hlast
  refine ⟨w1, w2, h1, h2, ?_⟩
  exact processing_is_complete ⟨fun _ => rfl, fun _ => rfl, fun _ => rfl⟩ h1 h2
    rfl rfl (by rw [hcall]; rfl) rfl rfl

end Vynor.Inbound.Core
