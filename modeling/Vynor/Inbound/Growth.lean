import Vynor.Inbound.Core

/-!
# What processing keeps

`effect_of_step` says what an action does to the run it moves, to the table of
events and to the conversations.  From it: a step leaves the other runs alone
(`Apart`), and whatever moves, a message that is stored stays stored, the count
of attempts of an event never falls, and an ingest keeps its request (`Grows`).
-/

namespace Vynor.Inbound

open Lib (Table)
open Journal (ProviderEvent ProviderEventStatus EventKey)

/-! ## Counted attempts -/

/-- A status write updates its event and leaves the others alone. -/
theorem find?_transitionProviderEventStatus {t t' : ProviderEvents} {eventId : Id}
    {newStatus : ProviderEventStatus} {lastError : Option (Option String)}
    {incrementAttempts : Bool} {now : Date} {k : EventKey} {e : ProviderEvent}
    (h : transitionProviderEventStatus t eventId newStatus lastError incrementAttempts now = some t')
    (he : t.find? k = some e) :
    t'.find? k = some (if e.id = eventId then
      transitioned newStatus lastError incrementAttempts now e else e) := by
  unfold transitionProviderEventStatus at h
  split at h
  · cases h
    rw [Table.find?_updateMany_of_some he]
    simp only [decide_eq_true_eq]
  · cases h

/-- At least `n` attempts of an event were counted. -/
def Counted (t : ProviderEvents) (id : Id) (n : Nat) : Prop :=
  ∃ e, t.find? (.id id) = some e ∧ n ≤ e.processingAttempts

theorem le_attempts_transitioned (newStatus : ProviderEventStatus)
    (lastError : Option (Option String)) (incrementAttempts : Bool) (now : Date)
    (e : ProviderEvent) :
    e.processingAttempts
      ≤ (transitioned newStatus lastError incrementAttempts now e).processingAttempts := by
  cases incrementAttempts with
  | true => exact Nat.le_succ e.processingAttempts
  | false => exact Nat.le_refl e.processingAttempts

theorem Counted.transition {t t' : ProviderEvents} {eventId : Id}
    {newStatus : ProviderEventStatus} {lastError : Option (Option String)}
    {incrementAttempts : Bool} {now : Date} {id : Id} {n : Nat} (hcounted : Counted t id n)
    (h : transitionProviderEventStatus t eventId newStatus lastError incrementAttempts now = some t') :
    Counted t' id n := by
  obtain ⟨e, he, hn⟩ := hcounted
  refine ⟨_, find?_transitionProviderEventStatus h he, ?_⟩
  split
  · exact Nat.le_trans hn (le_attempts_transitioned newStatus lastError incrementAttempts now e)
  · exact hn

/-- A write that counts an attempt adds one to the count. -/
theorem Counted.increment {t t' : ProviderEvents} {newStatus : ProviderEventStatus}
    {lastError : Option (Option String)} {now : Date} {id : Id} {n : Nat}
    (hcounted : Counted t id n)
    (h : transitionProviderEventStatus t id newStatus lastError true now = some t') :
    Counted t' id (n + 1) := by
  obtain ⟨e, he, hn⟩ := hcounted
  refine ⟨_, find?_transitionProviderEventStatus h he, ?_⟩
  rw [if_pos (id_of_find? he)]
  exact Nat.succ_le_succ hn

/-- The count of attempts of an event never falls. -/
theorem Counted.step {w w' : Runs.World} {a : Runs.Action} {id : Id} {n : Nat}
    (hcounted : Counted w.events id n) (h : Runs.step w a = some w') : Counted w'.events id n := by
  cases Runs.effect_of_step h with
  | journaled _ _ hins hw' =>
      subst hw'
      obtain ⟨e, he, hn⟩ := hcounted
      exact ⟨e, Table.find?_of_insert?_of_some hins he, hn⟩
  | read _ _ hw' | moved _ _ _ _ _ hw' =>
      subst hw'
      exact hcounted
  | wrote _ _ htrans _ _ _ hw' =>
      subst hw'
      exact hcounted.transition htrans

/-! ## Points of a run -/

/-- A run at this point may await a call of the services. -/
def Stage.calls : Stage → Bool
  | .handling _ (.message _ :: _) _ => true
  | .handling _ (.deliveryReceipt _ :: _) _ => true
  | _ => false

/-- A run at this point has left the `try` block by an error. -/
def Stage.left : Stage → Bool
  | .catching _ _ => true
  | .threw => true
  | .crashed => true
  | _ => false

theorem left_afterThrow {stage stage' : Stage} {error : ProcessError}
    (h : afterThrow stage error = some stage') : stage'.left = true ∧ stage.calls = false := by
  cases stage with
  | starting | discarding | claiming | settling | catching =>
      cases h
      exact ⟨rfl, rfl⟩
  | _ => cases h

/-- An answer that throws leads a run out of the `try` block. -/
theorem left_afterAnswer {stage stage' : Stage} {error : ProcessError}
    (h : afterAnswer stage (.throws error) = some stage') : stage'.left = true := by
  cases stage with
  | normalizing =>
      cases h
      rfl
  | handling event results tally =>
      match results with
      | .message _ :: _ | .deliveryReceipt _ :: _ =>
          cases h
          rfl
      | .ignored _ :: _ | [] => cases h
  | _ => cases h

namespace Core

/-! ## What a step does -/

/-- The same world with one run at another point. -/
def World.moves (w : World) (i : CallId) (s : Stage) : World :=
  { w with runs := w.runs.setCall i s }

/-- The action is the end of an `applyReceipt` that has resolved. -/
def Action.applies : Action → Bool
  | .applied _ => true
  | _ => false

/-- The action writes a status, whether the run learns of it or not. -/
def Action.writes : Action → Bool
  | .write _ _ => true
  | .lose _ _ _ => true
  | _ => false

/-- What a step does to the run it moves, and to the tables. -/
inductive Effect (env : Env) (w : World) : Action → World → Prop where
  | journal {event : ProviderEvent} {events : ProviderEvents} :
      w.runs.events.insert? event = some events →
      Effect env w (.journal event) { w with runs := { w.runs with events := events } }
  | others {directory : Delivery.Directory} :
      Effect env w (.others directory) { w with directory := directory }
  | core {a : Conversations.Action} {core : Conversations.World} :
      Conversations.step w.core a = some core → Effect env w (.core a) { w with core := core }
  | start {i : CallId} {eventId : Id} :
      w.runs.call i = .idle → Effect env w (.start i eventId) (w.moves i (.starting eventId))
  | read {i : CallId} {eventId : Id} :
      w.runs.call i = .starting eventId →
      Effect env w (.read i)
        { w with
          runs := (w.runs.reads i).setCall i
            (afterRead ((w.runs.events.find? (.id eventId)).any env.deleted)
              (w.runs.events.find? (.id eventId))) }
  | normalize {i : CallId} {event : ProviderEvent} :
      w.runs.call i = .normalizing event →
      Effect env w (.normalize i) (w.moves i (.handling event (env.results event.id) {}))
  | ingest {i : CallId} {j : Conversations.CallId} {messageId : Id} {event : ProviderEvent}
      {data : Conversations.InboundMessage} {rest : List InboundResult} {tally : Tally}
      {core : Conversations.World} :
      w.runs.call i = .handling event (.message data :: rest) tally →
      Conversations.step w.core (.ingest j (ingestRequest env event data tally messageId))
        = some core →
      Effect env w (.ingest i j messageId) { w.setAwait i (.ingest j) with core := core }
  | stored {i : CallId} {j : Conversations.CallId} {event : ProviderEvent}
      {data : Conversations.InboundMessage} {rest : List InboundResult} {tally : Tally}
      {request : Conversations.IngestRequest} {result : Conversations.IngestResult} :
      w.await i = .ingest j → w.runs.call i = .handling event (.message data :: rest) tally →
      w.core.call j = .ingested request result →
      Effect env w (.stored i) ((w.setAwait i .none).moves i (.handling event rest tally.store))
  | applyReceipt {i : CallId} {event : ProviderEvent} {receipt : DeliveryReceipt}
      {rest : List InboundResult} {tally : Tally} :
      w.runs.call i = .handling event (.deliveryReceipt receipt :: rest) tally →
      Effect env w (.applyReceipt i) (w.setAwait i
        (.receipt (Delivery.startReceipt w.delivery (env.channelOf event).id receipt)))
  | unmatched {i : CallId} {channelId : Id} {receipt : DeliveryReceipt} {s : Stage} :
      w.await i = .receipt (.matching channelId receipt) →
      Delivery.matchInternal w.delivery channelId receipt = .threw →
      afterAnswer (w.runs.call i) .unmatched = some s →
      Effect env w (.matchInternal i) ((w.setAwait i .none).moves i s)
  | receipt {a : Action} {i : CallId} {c c' : Delivery.Call} {messages : Messages} :
      a.run? = some i → a.applies = false → a.writes = false → w.await i = .receipt c →
      (∀ channelId receipt, c' ≠ .matching channelId receipt) →
      (messages = w.core.db.messages ∨ ∃ message receipt now,
        messages = (Delivery.transition w.core.db.messages message receipt now).1) →
      Effect env w a ((w.setMessages messages).setAwait i (.receipt c'))
  | applied {i : CallId} {event : ProviderEvent} {receipt : DeliveryReceipt}
      {rest : List InboundResult} {tally : Tally} :
      w.runs.call i = .handling event (.deliveryReceipt receipt :: rest) tally →
      Effect env w (.applied i) ((w.setAwait i .none).moves i (.handling event rest tally.apply))
  | passed {i : CallId} {event : ProviderEvent} {reason : String} {rest : List InboundResult}
      {tally : Tally} :
      w.runs.call i = .handling event (.ignored reason :: rest) tally →
      Effect env w (.pass i) (w.moves i (.handling event rest (tally.ignore reason)))
  | ended {i : CallId} {event : ProviderEvent} {tally : Tally} :
      w.runs.call i = .handling event [] tally →
      Effect env w (.pass i) (w.moves i (.settling event tally))
  | wrote {a : Action} {i : CallId} {now : Date} {event : ProviderEvent}
      {status : ProviderEventStatus} {next s : Stage} {events : ProviderEvents} :
      a.run? = some i → a.writes = true → (w.runs.call i).write? = some (event, status, next) →
      transitionProviderEventStatus w.runs.events event.id status (w.runs.call i).lastError
        (w.runs.call i).incrementAttempts now = some events →
      (s = next ∨ s.left = true) →
      Effect env w a { w with runs := (w.runs.write events ⟨event.id, status⟩).setCall i s }
  | left {a : Action} {i : CallId} {s : Stage} {x : Await} :
      a.run? = some i → a.applies = false → a.writes = false → s.left = true →
      (x = .none ∨ x = w.await i ∧ (w.runs.call i).calls = false) →
      Effect env w a ((w.setAwait i x).moves i s)

theorem runsStep_eq_some {w w' : World} {b : Runs.Action} :
    w.runsStep b = some w' ↔
      ∃ runs, Runs.step w.runs b = some runs ∧ { w with runs := runs } = w' :=
  Option.map_eq_some_iff

/-- An answer moves the run it goes to. -/
theorem runsStep_answer {w w' : World} {i : CallId} {answer : Answer}
    (h : w.runsStep (.answer i answer) = some w') :
    ∃ s, afterAnswer (w.runs.call i) answer = some s ∧ w.moves i s = w' := by
  obtain ⟨runs, hruns, rfl⟩ := runsStep_eq_some.mp h
  obtain ⟨s, hs, rfl⟩ := Option.map_eq_some_iff.mp hruns
  exact ⟨s, hs, rfl⟩

theorem matchInternal_ne_matching (w : Delivery.World) (channelId : Id) (receipt : DeliveryReceipt)
    (c : Id) (r : DeliveryReceipt) : Delivery.matchInternal w channelId receipt ≠ .matching c r := by
  unfold Delivery.matchInternal
  split
  · split <;> nofun
  · nofun

theorem afterTransition_ne_matching (receipt : DeliveryReceipt) (rest : List Message)
    (changed : Nat) (c : Id) (r : DeliveryReceipt) :
    Delivery.afterTransition receipt rest changed ≠ .matching c r := by
  unfold Delivery.afterTransition
  split <;> simp

/-- A transition of a receipt keeps every message under its keys. -/
theorem isSome_find?_transition (t : Messages) (message : Message) (receipt : DeliveryReceipt)
    (now : Date) (k : MessageKey) :
    ((Delivery.transition t message receipt now).1.find? k).isSome = (t.find? k).isSome := by
  unfold Delivery.transition
  split
  · rw [Table.find?_updateMany, Option.isSome_map]
  · rfl

theorem setAwait_self (w : World) (i : CallId) : w.setAwait i (w.await i) = w := by
  rw [World.setAwait, Function.update_eq_self]

theorem effect_of_step {env : Env} {w w' : World} {a : Action} (h : step env w a = some w') :
    Effect env w a w' := by
  cases a with
  | journal event =>
      obtain ⟨runs, hruns, rfl⟩ := runsStep_eq_some.mp h
      simp only [Runs.step] at hruns
      split at hruns
      · obtain ⟨events, hevents, rfl⟩ := Option.map_eq_some_iff.mp hruns
        exact .journal hevents
      · cases hruns
  | start i eventId =>
      obtain ⟨runs, hruns, rfl⟩ := runsStep_eq_some.mp h
      simp only [Runs.step] at hruns
      split at hruns
      next hidle =>
        cases hruns
        exact .start hidle
      · cases hruns
  | read i =>
      simp only [step, stepRead] at h
      split at h
      next eventId hcall =>
        obtain ⟨runs, hruns, rfl⟩ := runsStep_eq_some.mp h
        simp only [Runs.step, hcall] at hruns
        cases hruns
        exact .read hcall
      · cases h
  | normalize i =>
      simp only [step, stepNormalize] at h
      split at h
      next event hcall =>
        obtain ⟨s, hs, rfl⟩ := runsStep_answer h
        rw [hcall] at hs
        cases hs
        exact .normalize hcall
      · cases h
  | normalizeFails i error =>
      simp only [step] at h
      split at h
      next event hcall =>
        obtain ⟨s, hs, rfl⟩ := runsStep_answer h
        have hleft : Effect env w (.normalizeFails i error) ((w.setAwait i (w.await i)).moves i s) :=
          .left rfl rfl rfl (left_afterAnswer hs) (Or.inr ⟨rfl, by rw [hcall]; rfl⟩)
        rwa [setAwait_self] at hleft
      · cases h
  | ingest i j messageId =>
      simp only [step, stepIngest] at h
      split at h
      next event data rest tally _ hcall =>
        obtain ⟨core, hcore, rfl⟩ := Option.map_eq_some_iff.mp h
        exact .ingest hcall hcore
      · cases h
  | core a =>
      obtain ⟨core, hcore, rfl⟩ := Option.map_eq_some_iff.mp h
      exact .core hcore
  | stored i =>
      simp only [step, stepStored] at h
      split at h
      next j event data rest tally hawait hcall =>
        split at h
        next request result hj =>
          obtain ⟨s, hs, rfl⟩ := runsStep_answer h
          rw [World.setAwait, hcall] at hs
          cases hs
          exact .stored hawait hcall hj
        · cases h
      · cases h
  | ingestFails i error =>
      simp only [step, stepIngestFails] at h
      split at h
      · split at h
        · obtain ⟨s, hs, rfl⟩ := runsStep_answer h
          exact .left rfl rfl rfl (left_afterAnswer hs) (Or.inl rfl)
        · cases h
      · cases h
  | applyReceipt i =>
      simp only [step, stepApplyReceipt] at h
      split at h
      next event receipt rest tally _ hcall =>
        cases h
        exact .applyReceipt hcall
      · cases h
  | matchInternal i =>
      simp only [step, stepMatchInternal] at h
      split at h
      next channelId receipt hawait =>
        split at h
        next hthrew =>
          obtain ⟨s, hs, rfl⟩ := runsStep_answer h
          exact .unmatched hawait hthrew hs
        · cases h
          exact .receipt rfl rfl rfl hawait
            (matchInternal_ne_matching w.delivery channelId receipt) (Or.inl rfl)
      · cases h
  | cover i messages =>
      simp only [step, stepCover] at h
      split at h
      next channelId receipt identityId hawait =>
        split at h
        · cases h
          exact .receipt rfl rfl rfl hawait
            (afterTransition_ne_matching receipt messages 0) (Or.inl rfl)
        · cases h
      · cases h
  | transition i now =>
      simp only [step, stepTransition] at h
      split at h
      next receipt message rest changed hawait =>
        cases h
        exact .receipt rfl rfl rfl hawait (afterTransition_ne_matching receipt rest _)
          (Or.inr ⟨message, receipt, now, rfl⟩)
      · cases h
  | applied i =>
      simp only [step, stepApplied] at h
      split at h
      next count event receipt rest tally hawait hcall =>
        obtain ⟨s, hs, rfl⟩ := runsStep_answer h
        rw [World.setAwait, hcall] at hs
        cases hs
        exact .applied hcall
      · cases h
  | receiptFails i message =>
      simp only [step, stepReceiptFails] at h
      split at h
      · obtain ⟨s, hs, rfl⟩ := runsStep_answer h
        exact .left rfl rfl rfl (left_afterAnswer hs) (Or.inl rfl)
      · cases h
  | pass i =>
      simp only [step, stepPass] at h
      split at h
      next event reason rest tally hcall =>
        obtain ⟨s, hs, rfl⟩ := runsStep_answer h
        rw [hcall] at hs
        cases hs
        exact .passed hcall
      next event tally hcall =>
        obtain ⟨s, hs, rfl⟩ := runsStep_answer h
        rw [hcall] at hs
        cases hs
        exact .ended hcall
      · cases h
  | others directory =>
      cases h
      exact .others
  | write i now =>
      obtain ⟨runs, hruns, rfl⟩ := runsStep_eq_some.mp h
      obtain ⟨⟨w₁, next⟩, hw, rfl⟩ := Option.map_eq_some_iff.mp hruns
      obtain ⟨event, status, events, hwrite, hevents, rfl⟩ := Runs.World.writes?_eq_some.mp hw
      exact .wrote rfl rfl hwrite hevents (Or.inl rfl)
  | lose i now error =>
      obtain ⟨runs, hruns, rfl⟩ := runsStep_eq_some.mp h
      obtain ⟨⟨w₁, next⟩, hw, hruns⟩ := Option.bind_eq_some_iff.mp hruns
      obtain ⟨s, hs, rfl⟩ := Option.map_eq_some_iff.mp hruns
      obtain ⟨event, status, events, hwrite, hevents, rfl⟩ := Runs.World.writes?_eq_some.mp hw
      exact .wrote rfl rfl hwrite hevents (Or.inr (left_afterThrow hs).1)
  | throws i error =>
      obtain ⟨runs, hruns, rfl⟩ := runsStep_eq_some.mp h
      obtain ⟨s, hs, rfl⟩ := Option.map_eq_some_iff.mp hruns
      obtain ⟨hleft, hcalls⟩ := left_afterThrow hs
      have heffect : Effect env w (.throws i error) ((w.setAwait i (w.await i)).moves i s) :=
        .left rfl rfl rfl hleft (Or.inr ⟨rfl, hcalls⟩)
      rwa [setAwait_self] at heffect
  | crash i =>
      obtain ⟨runs, hruns, rfl⟩ := runsStep_eq_some.mp h
      simp only [Runs.step] at hruns
      split at hruns
      · cases hruns
      · cases hruns
        exact .left rfl rfl rfl rfl (Or.inl rfl)

/-! ## What a step leaves alone -/

section Frame

variable (w : World) {i k : CallId} (s : Stage) (x : Await) (messages : Messages)

@[simp] theorem moves_core : (w.moves i s).core = w.core := rfl

@[simp] theorem moves_await : (w.moves i s).await = w.await := rfl

@[simp] theorem moves_call_self : (w.moves i s).runs.call i = s := Runs.World.setCall_self w.runs i s

@[simp] theorem moves_events : (w.moves i s).runs.events = w.runs.events := rfl

theorem moves_call_other (h : k ≠ i) : (w.moves i s).runs.call k = w.runs.call k :=
  Runs.World.setCall_other w.runs s h

@[simp] theorem setAwait_core : (w.setAwait i x).core = w.core := rfl

@[simp] theorem setAwait_runs : (w.setAwait i x).runs = w.runs := rfl

@[simp] theorem setAwait_self_await : (w.setAwait i x).await i = x := by
  simp [World.setAwait]

theorem setAwait_other (h : k ≠ i) : (w.setAwait i x).await k = w.await k := by
  simp [World.setAwait, h]

@[simp] theorem setMessages_runs : (w.setMessages messages).runs = w.runs := rfl

@[simp] theorem setMessages_await : (w.setMessages messages).await = w.await := rfl

end Frame

section Step

variable {env : Env} {w w' : World} {a : Action}

/-- A step leaves the runs alone that it does not move. -/
theorem apart_of_step (h : step env w a = some w') {k : CallId} (hk : a.run? ≠ some k) :
    w'.runs.call k = w.runs.call k ∧ w'.await k = w.await k := by
  have hne : ∀ {i : CallId}, a.run? = some i → k ≠ i := by
    rintro i hi rfl
    exact hk hi
  cases effect_of_step h with
  | journal | others | core => exact ⟨rfl, rfl⟩
  | start | normalize | passed | ended =>
      exact ⟨moves_call_other w _ (hne rfl), rfl⟩
  | read => exact ⟨Runs.World.setCall_other _ _ (hne rfl), rfl⟩
  | ingest => exact ⟨rfl, setAwait_other w _ (hne rfl)⟩
  | applyReceipt => exact ⟨rfl, setAwait_other w _ (hne rfl)⟩
  | stored | applied | unmatched =>
      exact ⟨moves_call_other _ _ (hne rfl), setAwait_other w _ (hne rfl)⟩
  | receipt hi => exact ⟨rfl, setAwait_other _ _ (hne hi)⟩
  | wrote hi => exact ⟨Runs.World.setCall_other _ _ (hne hi), rfl⟩
  | left hi => exact ⟨moves_call_other _ _ (hne hi), setAwait_other w _ (hne hi)⟩

/-- A message that is stored stays stored. -/
theorem stored_of_step (h : step env w a = some w') {k : MessageKey}
    (hk : (w.core.db.messages.find? k).isSome = true) :
    (w'.core.db.messages.find? k).isSome = true := by
  obtain ⟨m, hm⟩ := Option.isSome_iff_exists.mp hk
  cases effect_of_step h with
  | core hcore | ingest _ hcore =>
      exact Option.isSome_iff_exists.mpr ⟨m, Conversations.message_kept hcore hm⟩
  | receipt _ _ _ _ _ hmessages =>
      rcases hmessages with rfl | ⟨message, receipt, now, rfl⟩
      · exact hk
      · exact (isSome_find?_transition w.core.db.messages message receipt now k).trans hk
  | _ => exact hk

/-- The count of attempts of an event never falls. -/
theorem counted_of_step (h : step env w a = some w') {id : Id} {n : Nat}
    (hcounted : Counted w.runs.events id n) : Counted w'.runs.events id n := by
  cases effect_of_step h with
  | journal hins =>
      obtain ⟨e, he, hn⟩ := hcounted
      exact ⟨e, Table.find?_of_insert?_of_some hins he, hn⟩
  | wrote _ _ _ htrans => exact hcounted.transition htrans
  | _ => exact hcounted

/-- An ingest that has begun keeps its request. -/
theorem asked_of_step (h : step env w a = some w') {j : Conversations.CallId}
    (hj : w.core.call j ≠ .idle) :
    w'.core.call j ≠ .idle ∧ ∀ r, (w'.core.call j).request? = some r →
      (w.core.call j).request? = some r := by
  cases effect_of_step h with
  | core hcore | ingest _ hcore =>
      refine ⟨Conversations.not_idle_of_step hcore hj, fun r hr => ?_⟩
      rcases Conversations.request?_of_step hcore hr with hold | ⟨_, hidle⟩
      · exact hold
      · exact absurd hidle hj
  | _ => exact ⟨hj, fun _ hr => hr⟩

/-- An ingest that has resolved names a message that is stored. -/
theorem named_of_step (h : step env w a = some w') (hw : Conversations.Named w.core) :
    Conversations.Named w'.core := by
  cases effect_of_step h with
  | core hcore | ingest _ hcore => exact Conversations.named_step hw hcore
  | receipt _ _ _ _ _ hmessages =>
      rcases hmessages with rfl | ⟨message, receipt, now, rfl⟩
      · exact hw
      · intro j request result hj
        rw [← Option.isSome_iff_exists]
        exact (isSome_find?_transition w.core.db.messages message receipt now _).trans
          (Option.isSome_iff_exists.mpr (hw j request result hj))
  | _ => exact hw

/-- A write of a run sets the status of its event. -/
theorem written_of_step (h : step env w a = some w') {i : CallId} {event : ProviderEvent}
    {status : ProviderEventStatus} {next : Stage} (ha : a.run? = some i) (hwrites : a.writes = true)
    (hwrite : (w.runs.call i).write? = some (event, status, next)) :
    statusOf? w'.runs.events event.id = some status := by
  cases effect_of_step h with
  | wrote hi _ hwrite' htrans =>
      rw [ha] at hi
      cases hi
      rw [hwrite] at hwrite'
      cases hwrite'
      exact (statusOf?_transition htrans event.id).trans (if_pos rfl)
  | receipt _ _ hnot | left _ _ hnot =>
      rw [hwrites] at hnot
      cases hnot
  | _ => cases hwrites

end Step

end Core

end Vynor.Inbound
