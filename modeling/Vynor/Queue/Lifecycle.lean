import Vynor.Queue.BullMq
import Mathlib.Data.List.Nodup

/-!
# Starts, handlers and shutdown

What the law of the lifecycle speaks of is a small part of the service: which
attempt is in flight, who owns a connection, which handlers wait, and how far a
shutdown has come.  `Core` is that part and `Core.Step` what can happen to it;
`coreStep_of_step` says that every step of the service is one of these.

The invariant of the core is that there is one chain of attempts (`one`): an
attempt in flight, or a retry that is planned, or a producer, never two of them.
-/

namespace Vynor.Queue.BullMq

open Lib (Machine)

/-- What the lifecycle is about. -/
structure Core where
  begun : Nat
  starting : List ConnectionId
  retrying : Bool
  producer : Option ConnectionId
  closing : Closing
  destroyed : Bool
  isOpen : ConnectionId → Bool
  registered : List Registration
  created : List Registration
  pending : List Registration

def World.core (w : World) : Core where
  begun := w.begun
  starting := w.starting
  retrying := w.service.retryTimer.isSome
  producer := w.service.producer
  closing := w.closing
  destroyed := w.service.destroyed
  isOpen := w.isOpen
  registered := w.registered
  created := w.created
  pending := w.service.pendingWorkers

/-- A core in which a connection is closed. -/
def Core.close (k : Core) (c : ConnectionId) : Core :=
  { k with isOpen := Function.update k.isOpen c false }

/-- What can happen to the core. -/
inductive Core.Step (k : Core) : Core → Prop where
  | quiet : Step k k
  | starts : (k.begun = 0 ∧ k.destroyed = false ∨ k.retrying = true) →
      Step k { k with
        begun := k.begun + 1
        starting := k.begun :: k.starting
        retrying := false
        isOpen := Function.update k.isOpen k.begun true }
  | connects {c : ConnectionId} : c ∈ k.starting → k.destroyed = false →
      Step k { k with
        starting := k.starting.erase c
        producer := some c
        created := k.created ++ k.pending
        pending := [] }
  | late {c : ConnectionId} : c ∈ k.starting → k.destroyed = true →
      Step k ({ k with starting := k.starting.erase c }.close c)
  | fails {c : ConnectionId} : c ∈ k.starting →
      Step k ({ k with
        starting := k.starting.erase c
        retrying := k.retrying || !k.destroyed }.close c)
  | defers {r : Registration} : k.producer = none → r.queue ∉ k.registered.map Registration.queue →
      Step k { k with registered := k.registered ++ [r], pending := k.pending ++ [r] }
  | works {r : Registration} : k.producer.isSome = true →
      r.queue ∉ k.registered.map Registration.queue →
      Step k { k with registered := k.registered ++ [r], created := k.created ++ [r] }
  | destroys : Step k { k with destroyed := true, retrying := false }
  | shuts {closing : Closing} : k.destroyed = true → closing ≠ .done → (∀ c, closing ≠ .producer c) →
      (∀ c, k.closing ≠ .producer c) → Step k { k with closing := closing }
  | drops : k.destroyed = true → (∀ c, k.closing ≠ .producer c) →
      Step k { k with
        producer := none
        closing := (k.producer.map Closing.producer).getD .done }
  | ends {c : ConnectionId} : k.closing = .producer c → Step k ({ k with closing := .done }.close c)

/-- What holds of the core between the steps. -/
structure Sound (k : Core) : Prop where
  /-- Handlers have distinct queues. -/
  distinct : (k.registered.map Registration.queue).Nodup
  /-- A handler waits, or has its worker. -/
  handlers : k.registered.Perm (k.created ++ k.pending)
  /-- An attempt is in flight, or a retry is planned, or there is a producer. -/
  one : k.starting.length + k.retrying.toNat + k.producer.toList.length ≤ 1
  fresh : k.begun = 0 → k.starting = [] ∧ k.retrying = false ∧ k.producer = none
  stopped : k.destroyed = true → k.retrying = false
  shut : k.closing ≠ .idle → k.destroyed = true
  gone : (k.closing = .done ∨ ∃ c, k.closing = .producer c) → k.producer = none
  /-- A connection is open for the one who will close it. -/
  owned : ∀ c, k.isOpen c = true →
    c ∈ k.starting ∨ k.producer = some c ∨ k.closing = .producer c

/-! ## The core keeps its invariant -/

section Keeps

variable {k k' : Core}

theorem Sound.of_starting (h : Sound k) {c : ConnectionId} (hc : c ∈ k.starting) :
    k.starting = [c] ∧ k.retrying = false ∧ k.producer = none ∧ k.begun ≠ 0 := by
  have hlength : 0 < k.starting.length := List.length_pos_of_mem hc
  have hone := h.one
  refine ⟨?_, ?_, ?_, fun hzero => ?_⟩
  · obtain ⟨d, hd⟩ : ∃ d, k.starting = [d] := List.length_eq_one_iff.mp (by omega)
    rw [hd, List.mem_singleton] at hc
    rw [hd, hc]
  · cases hr : k.retrying with
    | false => rfl
    | true =>
        rw [hr, Bool.toNat_true] at hone
        omega
  · cases hp : k.producer with
    | none => rfl
    | some d =>
        rw [hp, Option.toList_some, List.length_singleton] at hone
        omega
  · rw [(h.fresh hzero).1] at hc
    cases hc

/-- Closing the connection of the attempt in flight leaves none open for it. -/
theorem Sound.owned_erase (h : Sound k) {c d : ConnectionId} (hc : c ∈ k.starting)
    (hd : Function.update k.isOpen c false d = true) :
    d ∈ k.starting.erase c ∨ k.producer = some d ∨ k.closing = .producer d := by
  have hne : d ≠ c := by
    rintro rfl
    rw [Function.update_self] at hd
    cases hd
  rw [Function.update_of_ne hne] at hd
  exact (h.owned d hd).imp_left fun hmem => (List.mem_erase_of_ne hne).mpr hmem

theorem Sound.distinct_append (h : Sound k) {r : Registration}
    (hnew : r.queue ∉ k.registered.map Registration.queue) :
    ((k.registered ++ [r]).map Registration.queue).Nodup := by
  rw [List.map_append, List.map_singleton, List.nodup_append]
  refine ⟨h.distinct, List.nodup_singleton _, ?_⟩
  rintro q hq q' hq' rfl
  rw [List.mem_singleton.mp hq'] at hq
  exact hnew hq

theorem Sound.step (h : Sound k) (hs : k.Step k') : Sound k' := by
  cases hs with
  | quiet => exact h
  | starts hwhen =>
      have hfree : k.starting = [] ∧ k.producer = none ∧ k.destroyed = false := by
        rcases hwhen with ⟨hzero, halive⟩ | hretrying
        · exact ⟨(h.fresh hzero).1, (h.fresh hzero).2.2, halive⟩
        · have hone := h.one
          rw [hretrying, Bool.toNat_true] at hone
          refine ⟨List.length_eq_zero_iff.mp (by omega), ?_, ?_⟩
          · exact Option.toList_eq_nil_iff.mp (List.length_eq_zero_iff.mp (by omega))
          · cases hd : k.destroyed with
            | false => rfl
            | true =>
                rw [h.stopped hd] at hretrying
                cases hretrying
      obtain ⟨hstarting, hproducer, _⟩ := hfree
      refine ⟨h.distinct, h.handlers, ?_, fun hzero => absurd hzero (Nat.succ_ne_zero _),
        fun _ => rfl, h.shut, h.gone, fun c hc => ?_⟩
      · simp [hstarting, hproducer]
      · by_cases hcb : c = k.begun
        · exact Or.inl (hcb ▸ List.mem_cons_self)
        · simp only [Function.update_of_ne hcb] at hc
          exact (h.owned c hc).imp_left (List.mem_cons_of_mem _)
  | @connects c hc halive =>
      obtain ⟨hstarting, hretrying, hproducer, hbegun⟩ := h.of_starting hc
      have hclosing : k.closing = .idle := by
        by_contra hne
        rw [h.shut hne] at halive
        cases halive
      refine ⟨h.distinct, ?_, ?_, fun hzero => absurd hzero hbegun, h.stopped, h.shut, ?_,
        fun d hd => ?_⟩
      · rw [List.append_nil]
        exact h.handlers
      · simp [hstarting, hretrying]
      · rintro (hdone | ⟨d, hd⟩)
        · rw [show k.closing = .done from hdone] at hclosing
          cases hclosing
        · rw [show k.closing = .producer d from hd] at hclosing
          cases hclosing
      · rcases h.owned d hd with hmem | hown | hclose
        · rw [hstarting, List.mem_singleton] at hmem
          exact Or.inr (Or.inl (hmem ▸ rfl))
        · rw [hproducer] at hown
          cases hown
        · exact Or.inr (Or.inr hclose)
  | @late c hc hdestroyed =>
      obtain ⟨hstarting, hretrying, hproducer, hbegun⟩ := h.of_starting hc
      refine ⟨h.distinct, h.handlers, ?_, fun hzero => absurd hzero hbegun, h.stopped, h.shut,
        h.gone, fun d hd => h.owned_erase hc hd⟩
      simp [Core.close, hstarting, hretrying, hproducer]
  | @fails c hc =>
      obtain ⟨hstarting, hretrying, hproducer, hbegun⟩ := h.of_starting hc
      refine ⟨h.distinct, h.handlers, ?_, fun hzero => absurd hzero hbegun, fun hdestroyed => ?_,
        h.shut, h.gone, fun d hd => h.owned_erase hc hd⟩
      · simp [Core.close, hstarting, hproducer, Bool.toNat_le]
      · simp [Core.close, hretrying, show k.destroyed = true from hdestroyed]
  | @defers r hproducer hnew =>
      refine ⟨?_, ?_, h.one, h.fresh, h.stopped, h.shut, h.gone, h.owned⟩
      · exact h.distinct_append hnew
      · rw [← List.append_assoc]
        exact h.handlers.append_right [r]
  | @works r hproducer hnew =>
      refine ⟨?_, ?_, h.one, h.fresh, h.stopped, h.shut, h.gone, h.owned⟩
      · exact h.distinct_append hnew
      · refine (h.handlers.append_right [r]).trans ?_
        rw [List.append_assoc, List.append_assoc]
        exact List.perm_append_comm.append_left k.created
  | destroys =>
      refine ⟨h.distinct, h.handlers, ?_, fun hzero => ?_, fun _ => rfl, fun _ => rfl, h.gone, h.owned⟩
      · have hone := h.one
        simp only [Bool.toNat_false]
        omega
      · exact ⟨(h.fresh hzero).1, rfl, (h.fresh hzero).2.2⟩
  | shuts hdestroyed hdone hproducer hold =>
      refine ⟨h.distinct, h.handlers, h.one, h.fresh, h.stopped, fun _ => hdestroyed, ?_,
        fun c hc => ?_⟩
      · rintro (hd | ⟨c, hc⟩)
        · exact absurd hd hdone
        · exact absurd hc (hproducer c)
      · exact (h.owned c hc).imp_right fun hown => hown.imp_right fun hclose => absurd hclose (hold c)
  | drops hdestroyed hold =>
      refine ⟨h.distinct, h.handlers, ?_, fun hzero => ?_, h.stopped, fun _ => hdestroyed,
        fun _ => rfl, fun c hc => ?_⟩
      · have hone := h.one
        simp only [Option.toList_none, List.length_nil]
        omega
      · exact ⟨(h.fresh hzero).1, (h.fresh hzero).2.1, rfl⟩
      · rcases h.owned c hc with hmem | hown | hclose
        · exact Or.inl hmem
        · exact Or.inr (Or.inr (by rw [hown]; rfl))
        · exact absurd hclose (hold c)
  | @ends c hclosing =>
      have hgone : k.producer = none := h.gone (Or.inr ⟨c, hclosing⟩)
      refine ⟨h.distinct, h.handlers, h.one, h.fresh, h.stopped, fun _ => h.shut (by simp [hclosing]),
        fun _ => hgone, fun d hd => ?_⟩
      have hne : d ≠ c := by
        rintro rfl
        simp only [Core.close, Function.update_self] at hd
        cases hd
      simp only [Core.close, Function.update_of_ne hne] at hd
      rcases h.owned d hd with hmem | hown | hclose
      · exact Or.inl hmem
      · rw [hgone] at hown
        cases hown
      · rw [hclosing] at hclose
        cases hclose
        exact absurd rfl hne

/-- A worker that was created stays in the history. -/
theorem Core.Step.created_prefix (hs : k.Step k') : k.created <+: k'.created := by
  cases hs with
  | connects | works => exact List.prefix_append _ _
  | _ => exact List.prefix_rfl

theorem Core.Step.destroyed_kept (hs : k.Step k') (hd : k.destroyed = true) :
    k'.destroyed = true := by
  cases hs with
  | destroys => rfl
  | _ => exact hd

/-- After the service is destroyed no attempt begins. -/
theorem Core.Step.begun_kept (hs : k.Step k') (h : Sound k) (hd : k.destroyed = true) :
    k'.begun = k.begun := by
  cases hs with
  | starts hwhen =>
      rcases hwhen with ⟨_, halive⟩ | hretrying
      · rw [hd] at halive
        cases halive
      · rw [h.stopped hd] at hretrying
        cases hretrying
  | _ => rfl

/-- A handler that does not wait has exactly one worker. -/
theorem Sound.count_created (h : Sound k) {r : Registration} (hr : r ∈ k.created) :
    k.created.count r = 1 := by
  have hnodup : k.created.Nodup :=
    (List.nodup_append.mp (h.handlers.nodup_iff.mp h.distinct.of_map)).1
  exact List.count_eq_one_of_mem hnodup hr

theorem Sound.count_created_le (h : Sound k) (r : Registration) : k.created.count r ≤ 1 := by
  by_cases hr : r ∈ k.created
  · exact Nat.le_of_eq (h.count_created hr)
  · rw [List.count_eq_zero_of_not_mem hr]
    exact Nat.zero_le 1

end Keeps

/-! ## The service follows the core -/

/-- The core is sound, and the workers at hand are ones that were created. -/
structure Followed (w : World) : Prop where
  sound : Sound w.core
  workers : w.service.workers.Sublist w.created

/-- Workers for queues that have none are all started. -/
theorem World.startWorkers_eq {pending : List Registration} {w : World}
    (h : ((w.service.workers ++ pending).map Registration.queue).Nodup) :
    w.startWorkers pending =
      { w with
        service := { w.service with workers := w.service.workers ++ pending }
        created := w.created ++ pending } := by
  induction pending generalizing w with
  | nil => simp [World.startWorkers]
  | cons r rest ih =>
      have hfree : (w.service.workers.any fun worker => worker.queue = r.queue) = false := by
        rw [List.any_eq_false]
        intro worker hworker hsame
        rw [List.map_append, List.nodup_append] at h
        exact h.2.2 worker.queue (List.mem_map_of_mem hworker) r.queue
          (List.mem_map_of_mem List.mem_cons_self) (of_decide_eq_true hsame)
      have hstart : w.startWorker r = some { w with
          service := { w.service with workers := w.service.workers ++ [r] }
          created := w.created ++ [r] } := by
        rw [World.startWorker, hfree]
        rfl
      rw [World.startWorkers, hstart, Option.getD_some, ih]
      · simp
      · simpa using h

/-- A handler whose queue is new has no worker. -/
theorem Followed.free (h : Followed w) {r : Registration}
    (hnew : r.queue ∉ w.registered.map Registration.queue) :
    (w.service.workers.any fun worker => worker.queue = r.queue) = false := by
  rw [List.any_eq_false]
  intro worker hworker hsame
  have hmem : worker ∈ w.registered :=
    h.sound.handlers.mem_iff.mpr (List.mem_append_left _ (h.workers.subset hworker))
  exact hnew (of_decide_eq_true hsame ▸ List.mem_map_of_mem hmem)

/-- Workers at hand and handlers that wait are for distinct queues. -/
theorem Followed.distinct (h : Followed w) :
    ((w.service.workers ++ w.service.pendingWorkers).map Registration.queue).Nodup :=
  ((h.workers.append_right _).map _).nodup
    ((h.sound.handlers.map Registration.queue).nodup_iff.mp h.sound.distinct)

/-- The core of a world after an attempt has failed. -/
theorem core_failed (w : World) (c : ConnectionId) :
    (w.failed c).core = { w.core with
      starting := w.core.starting.erase c
      retrying := w.core.retrying || !w.core.destroyed }.close c := by
  cases hd : w.service.destroyed <;>
    simp [World.failed, World.core, Core.close, World.close, Service.scheduleRetry, hd]

/-- An attempt that has connected in time starts the workers of all handlers that
wait. -/
theorem core_connected (h : Followed w) {c : ConnectionId} (hd : w.service.destroyed = false) :
    (w.connected c).core = { w.core with
      starting := w.core.starting.erase c
      producer := some c
      created := w.core.created ++ w.core.pending
      pending := [] } ∧
    (w.connected c).service.workers = w.service.workers ++ w.service.pendingWorkers := by
  simp only [World.connected, hd, World.registerPendingWorkers]
  rw [if_neg Bool.false_ne_true, World.startWorkers_eq]
  · simp [World.core, hd]
  · exact h.distinct

/-- A handler with a new queue waits where there is no producer, and else has its
worker at once. -/
theorem core_work (h : Followed w) {r : Registration}
    (hnew : r.queue ∉ w.registered.map Registration.queue) :
    w.core.Step (w.work r).core ∧ (w.work r).service.workers.Sublist (w.work r).created := by
  unfold World.work
  split
  next hproducer =>
    exact ⟨.defers (Option.isNone_iff_eq_none.mp hproducer) hnew, h.workers⟩
  next hproducer =>
    have hsome : w.service.producer.isSome = true := by
      rwa [Option.isNone_iff_eq_none, ← ne_eq, ← Option.isSome_iff_ne_none] at hproducer
    rw [World.startWorker, h.free hnew]
    exact ⟨.works hsome hnew, h.workers.append_right [r]⟩

theorem core_send (w : World) (i : Nat) (queue : QueueName) (key : String) :
    (w.send i queue key).core = w.core ∧
      (w.send i queue key).service.workers = w.service.workers ∧
      (w.send i queue key).created = w.created := by
  unfold World.send
  split
  · exact ⟨rfl, rfl, rfl⟩
  · split
    · exact ⟨rfl, rfl, rfl⟩
    · split <;> exact ⟨rfl, rfl, rfl⟩

theorem core_probe (w : World) :
    ({ w with service := w.service.probe }).core = w.core ∧
      w.service.probe.workers = w.service.workers := by
  unfold Service.probe
  split <;> exact ⟨rfl, rfl⟩

/-- Every step of the service is one of its core, and its workers are ones that
were created. -/
theorem core_of_step {w w' : World} {a : Action} (h : Followed w) (hs : machine.step w a = some w') :
    w.core.Step w'.core ∧ w'.service.workers.Sublist w'.created := by
  have hquiet : ∀ {v : World}, v.core = w.core → v.service.workers = w.service.workers →
      v.created = w.created → w.core.Step v.core ∧ v.service.workers.Sublist v.created := by
    intro v hcore hworkers hcreated
    rw [hcore, hworkers, hcreated]
    exact ⟨.quiet, h.workers⟩
  cases a with
  | work r =>
      simp only [machine] at hs
      split at hs
      · cases hs
      next hnew =>
        cases hs
        exact core_work h hnew
  | onModuleInit =>
      obtain ⟨⟨hzero, halive⟩, heq⟩ := Option.ite_none_right_eq_some.mp hs
      cases heq
      have hidle : w.service.retryTimer.isSome = false := (h.sound.fresh hzero).2.1
      have hstarts := Core.Step.starts (k := w.core) (Or.inl ⟨hzero, halive⟩)
      rw [← hidle] at hstarts
      exact ⟨hstarts, h.workers⟩
  | connects c =>
      obtain ⟨hc, heq⟩ := Option.ite_none_right_eq_some.mp hs
      cases heq
      cases hd : w.service.destroyed with
      | false =>
          obtain ⟨hcore, hworkers⟩ := core_connected h (c := c) hd
          have hcreated : (w.connected c).created = w.created ++ w.service.pendingWorkers :=
            congrArg Core.created hcore
          rw [hcore, hworkers, hcreated]
          exact ⟨.connects hc hd, h.workers.append_right _⟩
      | true =>
          simp only [World.connected, hd, if_true]
          exact ⟨.late hc hd, h.workers⟩
  | fails c =>
      obtain ⟨hc, heq⟩ := Option.ite_none_right_eq_some.mp hs
      cases heq
      rw [core_failed]
      refine ⟨.fails hc, ?_⟩
      have hsame : (w.failed c).service.workers = w.service.workers := by
        simp only [World.failed, World.close, Service.scheduleRetry]
        split <;> rfl
      rw [hsame]
      exact h.workers
  | retry =>
      obtain ⟨hretry, heq⟩ := Option.ite_none_right_eq_some.mp hs
      cases heq
      exact ⟨.starts (Or.inr hretry), h.workers⟩
  | probe =>
      obtain ⟨_, heq⟩ := Option.ite_none_right_eq_some.mp hs
      cases heq
      obtain ⟨hcore, hworkers⟩ := core_probe w
      exact hquiet hcore hworkers rfl
  | probed answered =>
      obtain ⟨_, heq⟩ := Option.ite_none_right_eq_some.mp hs
      cases heq
      exact hquiet rfl rfl rfl
  | reconnecting c =>
      obtain ⟨_, heq⟩ := Option.ite_none_right_eq_some.mp hs
      split at heq <;>
      · cases heq
        exact hquiet rfl rfl rfl
  | ready c =>
      obtain ⟨_, heq⟩ := Option.ite_none_right_eq_some.mp hs
      split at heq
      · cases heq
        obtain ⟨hcore, hworkers⟩ := core_probe w
        exact hquiet hcore hworkers rfl
      · cases heq
        exact hquiet rfl rfl rfl
  | send i queue key =>
      obtain ⟨_, heq⟩ := Option.ite_none_right_eq_some.mp hs
      cases heq
      obtain ⟨hcore, hworkers, hcreated⟩ := core_send w i queue key
      exact hquiet hcore hworkers hcreated
  | added i answered =>
      obtain ⟨_, heq⟩ := Option.ite_none_right_eq_some.mp hs
      split at heq <;>
      · cases heq
        exact hquiet rfl rfl rfl
  | onModuleDestroy =>
      cases hs
      exact ⟨.destroys, h.workers⟩
  | beforeApplicationShutdown =>
      obtain ⟨⟨hdestroyed, hidle⟩, heq⟩ := Option.ite_none_right_eq_some.mp hs
      cases heq
      refine ⟨.shuts hdestroyed (by simp) (by simp) (fun c => ?_), List.nil_sublist _⟩
      simp [World.core, hidle]
  | workersClosed =>
      obtain ⟨hclosing, heq⟩ := Option.ite_none_right_eq_some.mp hs
      cases heq
      have hdestroyed := h.sound.shut (show w.closing ≠ .idle by simp [hclosing])
      refine ⟨.shuts hdestroyed (by simp) (by simp) (fun c => ?_), h.workers⟩
      simp [World.core, hclosing]
  | queuesClosed =>
      obtain ⟨hclosing, heq⟩ := Option.ite_none_right_eq_some.mp hs
      cases heq
      have hdestroyed := h.sound.shut (show w.closing ≠ .idle by simp [hclosing])
      refine ⟨.drops hdestroyed (fun c => ?_), h.workers⟩
      simp [World.core, hclosing]
  | producerClosed =>
      simp only [machine, step] at hs
      split at hs
      next c hclosing =>
        cases hs
        exact ⟨.ends hclosing, h.workers⟩
      · cases hs

theorem followed_step {w w' : World} {a : Action} (h : Followed w)
    (hs : machine.step w a = some w') : Followed w' := by
  obtain ⟨hcore, hworkers⟩ := core_of_step h hs
  exact ⟨h.sound.step hcore, hworkers⟩

theorem followed_init : Followed World.init where
  sound := by
    refine ⟨List.nodup_nil, List.Perm.refl _, Nat.zero_le _, fun _ => ⟨rfl, rfl, rfl⟩, fun _ => rfl,
      fun hne => absurd rfl hne, fun _ => rfl, fun c hc => ?_⟩
    cases hc
  workers := List.Sublist.refl _

/-! ## Along a run -/

/-- A run keeps its invariant, and nothing is taken back on the way. -/
theorem grows_of_run {as : List Action} : ∀ {w w' : World}, Followed w →
    machine.run w as = some w' →
    Followed w' ∧ w.created <+: w'.created ∧
      (w.service.destroyed = true → w'.service.destroyed = true ∧ w'.begun = w.begun) := by
  induction as with
  | nil =>
      intro w w' h hr
      cases hr
      exact ⟨h, List.prefix_rfl, fun hd => ⟨hd, rfl⟩⟩
  | cons a as ih =>
      intro w w' h hr
      obtain ⟨w₁, hs, hr⟩ := (machine.run_cons_eq_some).mp hr
      obtain ⟨hcore, _⟩ := core_of_step h hs
      obtain ⟨h', hcreated, hkept⟩ := ih (followed_step h hs) hr
      refine ⟨h', hcore.created_prefix.trans hcreated, fun hd => ?_⟩
      obtain ⟨hd', hbegun⟩ := hkept (hcore.destroyed_kept hd)
      exact ⟨hd', hbegun.trans (hcore.begun_kept h.sound hd)⟩

/-- What holds after a run of the service, at whatever point it stops. -/
structure KeepsLifecycle (as : List Action) (w : World) : Prop where
  /-- A handler gets at most one worker. -/
  one : ∀ r ∈ w.registered, w.created.count r ≤ 1
  /-- It has one if an attempt has connected since it came, before the service was
  destroyed. -/
  started : ∀ pre c post w₁, as = pre ++ .connects c :: post → machine.run .init pre = some w₁ →
    w₁.service.destroyed = false → ∀ r ∈ w₁.registered, w.created.count r = 1
  /-- Once the service is destroyed it does not run, no attempt begins, and a send
  rejects. -/
  stopped : ∀ pre post w₁, as = pre ++ .onModuleDestroy :: post → machine.run .init pre = some w₁ →
    w.isRunning = false ∧ w.begun = w₁.begun ∧ ∀ i queue key w', machine.step w (.send i queue key) =
      some w' → w'.sends i = .rejected (.notRunning queue)
  /-- After the shutdown and the end of the attempts no connection is open. -/
  closed : w.closing = .done → w.starting = [] → ∀ c, w.isOpen c = false

/-- A service that is destroyed does not run. -/
theorem isRunning_of_destroyed {w : World} (hd : w.service.destroyed = true) :
    w.isRunning = false := by
  simp [World.isRunning, hd]

theorem rejected_of_destroyed {w w' : World} (hd : w.service.destroyed = true) {i : Nat}
    {queue : QueueName} {key : String} (hs : machine.step w (.send i queue key) = some w') :
    w'.sends i = .rejected (.notRunning queue) := by
  obtain ⟨_, heq⟩ := Option.ite_none_right_eq_some.mp hs
  cases heq
  simp [World.send, isRunning_of_destroyed hd, World.setSend]

/-- In every run in which `work` is called for distinct queues, each handler gets
at most one worker, exactly one once an attempt connects in time; after the
service is destroyed nothing is sent and no attempt begins; and when the shutdown
and the attempts are over no producer connection is open. -/
theorem keepsLifecycle_of_run {as : List Action} {w : World}
    (h : machine.run World.init as = some w) : KeepsLifecycle as w := by
  obtain ⟨hend, _, _⟩ := grows_of_run followed_init h
  refine ⟨fun r _ => hend.sound.count_created_le r, ?_, ?_, ?_⟩
  · rintro pre c post w₁ rfl hpre halive r hr
    obtain ⟨w₁', hpre', hrest⟩ := (machine.run_append_eq_some).mp h
    obtain rfl : w₁ = w₁' := Option.some.inj (hpre.symm.trans hpre')
    obtain ⟨w₂, hs, hpost⟩ := (machine.run_cons_eq_some).mp hrest
    obtain ⟨h₁, _, _⟩ := grows_of_run followed_init hpre
    obtain ⟨_, hcreated, _⟩ := grows_of_run (followed_step h₁ hs) hpost
    obtain ⟨_, heq⟩ := Option.ite_none_right_eq_some.mp hs
    cases heq
    have hstarted : (w₁.connected c).created = w₁.created ++ w₁.service.pendingWorkers :=
      congrArg Core.created (core_connected h₁ halive).1
    rw [hstarted] at hcreated
    exact hend.sound.count_created (hcreated.subset (h₁.sound.handlers.mem_iff.mp hr))
  · rintro pre post w₁ rfl hpre
    obtain ⟨w₁', hpre', hrest⟩ := (machine.run_append_eq_some).mp h
    obtain rfl : w₁ = w₁' := Option.some.inj (hpre.symm.trans hpre')
    obtain ⟨w₂, hs, hpost⟩ := (machine.run_cons_eq_some).mp hrest
    obtain ⟨h₁, _, _⟩ := grows_of_run followed_init hpre
    obtain ⟨_, _, hkept⟩ := grows_of_run (followed_step h₁ hs) hpost
    cases hs
    obtain ⟨hd, hbegun⟩ := hkept rfl
    exact ⟨isRunning_of_destroyed hd, hbegun, fun i queue key w' hs => rejected_of_destroyed hd hs⟩
  · intro hdone hstarting c
    cases hopen : w.isOpen c with
    | false => rfl
    | true =>
        rcases hend.sound.owned c hopen with hmem | hown | hclose
        · rw [show w.core.starting = [] from hstarting] at hmem
          cases hmem
        · rw [hend.sound.gone (Or.inl hdone)] at hown
          cases hown
        · rw [show w.core.closing = .done from hdone] at hclose
          cases hclose

/-- A boot that fails, a handler that waits, a retry that connects, and a shutdown
during which another handler comes. -/
def exampleLifecycle : List Action :=
  [.onModuleInit, .fails 0, .work ⟨.webhooksProcess, 0⟩, .retry, .ready 1, .connects 1,
    .send 0 .webhooksProcess "outbox-1", .added 0 true, .onModuleDestroy,
    .send 1 .webhooksProcess "outbox-2", .beforeApplicationShutdown, .workersClosed,
    .work ⟨.messagesOutbound, 1⟩, .queuesClosed, .producerClosed]

theorem keepsLifecycle_exampleLifecycle :
    ∃ w, machine.run World.init exampleLifecycle = some w ∧ w.closing = .done ∧
      w.sends 1 = .rejected (.notRunning .webhooksProcess) ∧ w.sends 0 = .resolved ∧
      w.created = [⟨.webhooksProcess, 0⟩, ⟨.messagesOutbound, 1⟩] ∧
      KeepsLifecycle exampleLifecycle w := by
  have hrun : (machine.run World.init exampleLifecycle).isSome = true := by decide
  obtain ⟨w, hw⟩ := Option.isSome_iff_exists.mp hrun
  have hview : (machine.run World.init exampleLifecycle).map (fun w =>
      (w.closing, w.sends 1, w.sends 0, w.created)) =
      some (.done, .rejected (.notRunning .webhooksProcess), .resolved,
        [⟨.webhooksProcess, 0⟩, ⟨.messagesOutbound, 1⟩]) := by decide
  rw [hw] at hview
  simp only [Option.map_some, Option.some.injEq, Prod.mk.injEq] at hview
  obtain ⟨hclosing, hlate, hsent, hcreated⟩ := hview
  exact ⟨w, hw, hclosing, hlate, hsent, hcreated, keepsLifecycle_of_run hw⟩

end Vynor.Queue.BullMq
