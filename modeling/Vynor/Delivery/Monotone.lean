import Vynor.Delivery.System

/-!
# Monotone statuses

The status of a reply is meant to follow `isDeliveryStatusMonotonic` whatever
calls overlap, and to become `PENDING` only from `FAILED` and only by a retry.
Four of the five writes repeat the status they rely on, so they are safe at any
delay.  `retryMessage` writes `PENDING` by id alone: where the reply has moved
on since it was read as `FAILED`, the retry takes it back.

`NoStaleReset` is the exact condition.  It also speaks of a receipt whose own
status is `PENDING`, which the schema of receipts allows.
-/

namespace Vynor.Delivery

open Lib (Table Machine)

/-- Every status change of a reply is allowed, and a change to `PENDING` is a
retry of a `FAILED` one. -/
def MonotoneStep (w : World) (a : Action) (w' : World) : Prop :=
  ∀ id m, w.messages.find? (.id id) = some m → Reply m →
    ∃ m', w'.messages.find? (.id id) = some m' ∧
      isDeliveryStatusMonotonic m.status m'.status = true ∧
      (m'.status = .pending → m.status = .pending ∨ m.status = .failed ∧ a.isRetry = true)

/-- A retry finds its reply `FAILED`, or `PENDING` already, and no receipt with
status `PENDING` finds its reply `FAILED` as it was read. -/
def NoStaleReset (w : World) (a : Action) (_ : World) : Prop :=
  match a with
  | .markRetried i _ => ∀ messageId, w.call i = .retrying messageId →
      ∀ m, w.messages.find? (.id messageId) = some m → Reply m →
        m.status = .failed ∨ m.status = .pending
  | .transition i _ => ∀ receipt message rest changed,
      w.call i = .applying receipt (message :: rest) changed → receipt.status = .pending →
      message.status = .failed → ∀ m, w.messages.find? (.id message.id) = some m → Reply m →
        m.status ≠ .failed
  | _ => True

/-- The reply of a retry after its update. -/
theorem find?_of_retry {w w' : World} {i : CallId} {now : Date} {messageId : Id} {m : Message}
    (h : step w (.markRetried i now) = some w') (hcall : w.call i = .retrying messageId)
    (hm : w.messages.find? (.id messageId) = some m) :
    w'.messages.find? (.id messageId) = some (retried now m) := by
  simp only [step, hcall, Option.some.injEq] at h
  subst h
  show (markRetried w.messages messageId now).find? (.id messageId) = _
  rw [find?_markRetried messageId now hm, Message.id_of_find? hm]
  simp

/-- The message of a receipt after its update, where the status is still the
one read. -/
theorem find?_of_receipt {w w' : World} {i : CallId} {now : Date} {receipt : DeliveryReceipt}
    {message m : Message} {rest : List Message} {changed : Nat}
    (h : step w (.transition i now) = some w')
    (hcall : w.call i = .applying receipt (message :: rest) changed)
    (hm : w.messages.find? (.id message.id) = some m) (hread : m.status = message.status)
    (hadv : Advances message.status receipt) :
    w'.messages.find? (.id message.id) = some (received receipt now m) := by
  simp only [step, hcall, Option.some.injEq] at h
  subst h
  show (transition w.messages message receipt now).1.find? (.id message.id) = _
  rw [find?_transition message receipt now hm]
  simp [hadv, asRead, hread, Message.id_of_find? hm]

/-- A step is monotone exactly when it is no stale reset. -/
theorem monotoneStep_iff {w w' : World} {a : Action} (h : step w a = some w') :
    MonotoneStep w a w' ↔ NoStaleReset w a w' := by
  constructor
  · intro hmono
    cases a with
    | markRetried i now =>
        intro messageId hcall m hm hreply
        obtain ⟨m', hm', hallowed, _⟩ := hmono messageId m hm hreply
        rw [find?_of_retry h hcall hm] at hm'
        cases hm'
        exact (eq_of_monotonic_pending hallowed).symm
    | transition i now =>
        intro receipt message rest changed hcall hpending hfailed m hm hreply hnow
        obtain ⟨m', hm', _, hreset⟩ := hmono message.id m hm hreply
        have hadv : Advances message.status receipt := by
          rw [hfailed, Advances, hpending]
          decide
        rw [find?_of_receipt h hcall hm (hnow.trans hfailed.symm) hadv] at hm'
        cases hm'
        rw [status_received] at hreset
        rcases hreset hpending with hstill | hretry
        · rw [hnow] at hstill
          cases hstill
        · cases hretry.2
    | _ => trivial
  · intro hno id m hm hreply
    obtain ⟨m', hm', hrow⟩ := step_row h hm
    have hid := Message.id_of_find? hm
    refine ⟨m', hm', ?_⟩
    cases hrow with
    | same => exact ⟨isDeliveryStatusMonotonic_self _, fun hp => Or.inl hp⟩
    | sent hcall hpending =>
        rw [hpending]
        exact ⟨rfl, fun hp => by cases hp⟩
    | failed hcall hpending =>
        rw [hpending]
        exact ⟨rfl, fun hp => by cases hp⟩
    | fetched hcall hsent =>
        rw [hsent]
        exact ⟨rfl, fun hp => by cases hp⟩
    | @received i now receipt message _ rest changed hcall hmid hread hadv =>
        rw [status_received]
        refine ⟨hadv.1, fun hp => ?_⟩
        have hcases := hadv.1
        rw [hp] at hcases
        rcases eq_of_monotonic_pending hcases with hstill | hfailed
        · exact Or.inl hstill
        · have hrow : w.messages.find? (.id message.id) = some m := by rw [hmid, hid]; exact hm
          exact absurd hfailed
            (hno receipt message rest changed hcall hp (hread.trans hfailed) m hrow hreply)
    | @retried i now _ hcall =>
        have hrow : w.messages.find? (.id m.id) = some m := by rw [hid]; exact hm
        rcases hno m.id hcall m hrow hreply with hfailed | hpending
        · rw [hfailed]
          exact ⟨rfl, fun _ => Or.inr ⟨rfl, rfl⟩⟩
        · rw [hpending]
          exact ⟨rfl, fun _ => Or.inl rfl⟩

/-- Along every run, from any world, the statuses are monotone exactly as long
as no reset is stale. -/
theorem along_monotoneStep_iff (w : World) (as : List Action) :
    machine.Along MonotoneStep w as ↔ machine.Along NoStaleReset w as :=
  Machine.along_iff (I := fun _ => True) (fun _ _ _ _ _ => trivial)
    (fun _ _ _ _ h => monotoneStep_iff h) trivial

/-! ## A retry that comes late -/

/-- A reply fails on its last attempt and two agents retry it.  The first retry
is committed and the reply is sent before the second one writes. -/
def lateRetry : List Action :=
  [.insert exampleReply, .send 0 "m" true, .sendMessage 0, .rejected 0 (.other none), .fail 0 1,
    .retry 1 "workspace" "m", .retry 2 "workspace" "m", .markRetried 1 2,
    .send 3 "m" false, .sendMessage 3, .accepted 3 (some "p1") none 3, .markSent 3 4]

/-- The second retry takes the reply from `SENT` back to `PENDING`. -/
theorem lateRetry_resets :
    ∃ w w', machine.run World.init lateRetry = some w ∧
      machine.step w (.markRetried 2 5) = some w' ∧
      w.replyStatus "m" = some .sent ∧ w'.replyStatus "m" = some .pending := by
  have hlast : ((machine.run World.init lateRetry).bind fun w =>
      (machine.step w (.markRetried 2 5)).map fun w' => (w.replyStatus "m", w'.replyStatus "m"))
        = some (some .sent, some .pending) := by decide
  obtain ⟨w, w', hw, hw', hstatus⟩ := machine.exists_last hlast
  rw [Prod.mk.injEq] at hstatus
  exact ⟨w, w', hw, hw', hstatus.1, hstatus.2⟩

/-- Statuses are not monotone along every run. -/
theorem not_monotoneStep : ¬ ∀ as, machine.Along MonotoneStep World.init as := by
  intro h
  obtain ⟨w, w', hw, hw', hsent, hpending⟩ := lateRetry_resets
  obtain ⟨m, hm, hreply, hs⟩ := World.replyStatus_eq_some.mp hsent
  obtain ⟨m1, hm1, _, hs1⟩ := World.replyStatus_eq_some.mp hpending
  obtain ⟨m', hm', hallowed, _⟩ :=
    (h (lateRetry ++ [.markRetried 2 5])).last hw hw' "m" m hm hreply
  rw [hm1] at hm'
  cases hm'
  rw [hs, hs1] at hallowed
  cases hallowed

end Vynor.Delivery
