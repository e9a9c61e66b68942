import Vynor.Delivery.System

/-!
# Replies the provider accepted

Between the adapter's answer and the commit of `markSent` a reply is still
`PENDING`, so another attempt may send it again, and a failed `markSent` leads
to a retry or to `FAILED`.  Delivery to providers is at least once.

Once `markSent` has committed, the reply is no longer `PENDING`, and only a
retry brings that status back.  An attempt that reads the reply later stops at
its check, and the update of `fail` finds nothing to change.
-/

namespace Vynor.Delivery

open Lib (Table Machine)

/-- The attempt of a call between its check and its end. -/
def Call.attempt? : Call → Option Attempt
  | .prepared attempt => some attempt
  | .calling attempt => some attempt
  | .marking attempt _ _ => some attempt
  | .remarking attempt _ => some attempt
  | .recording attempt => some attempt
  | _ => none

@[simp] theorem attempt?_catchSend (attempt : Attempt) (error : Thrown) :
    (catchSend attempt error).attempt? = none := by
  simp only [catchSend]
  split <;> rfl

@[simp] theorem attempt?_afterFail (code text : String) (rest : List Id) :
    (afterFail code text rest).attempt? = none := by
  cases rest <;> rfl

@[simp] theorem attempt?_startSweep (messages : List Message) :
    (startSweep messages).attempt? = none := attempt?_afterFail _ _ _

@[simp] theorem attempt?_afterTransition (receipt : DeliveryReceipt) (rest : List Message)
    (changed : Nat) : (afterTransition receipt rest changed).attempt? = none := by
  simp only [afterTransition]
  split <;> rfl

@[simp] theorem attempt?_startReceipt (w : World) (channelId : Id) (receipt : DeliveryReceipt) :
    (startReceipt w channelId receipt).attempt? = none := by
  rw [startReceipt]
  split
  · split <;> rfl
  · split <;> rfl

@[simp] theorem attempt?_matchInternal (w : World) (channelId : Id) (receipt : DeliveryReceipt) :
    (matchInternal w channelId receipt).attempt? = none := by
  rw [matchInternal]
  split
  · split <;> rfl
  · rfl

@[simp] theorem attempt?_startDelivering (rows : List Message) :
    (startDelivering rows).attempt? = none := by
  simp only [startDelivering]
  split <;> rfl

@[simp] theorem attempt?_startRetry (message : Message) (channel : ProviderAccount)
    (workspaceId : Id) : (startRetry message channel workspaceId).attempt? = none := by
  rw [startRetry]
  split
  · rfl
  · split
    · rfl
    · split <;> rfl

/-- An attempt past its check read its reply as `PENDING`. -/
theorem attempt?_startSend {message : Message} {channel : ProviderAccount} {finalAttempt : Bool}
    {attempt : Attempt} (h : (startSend message channel finalAttempt).attempt? = some attempt) :
    attempt.message = message ∧ message.status = .pending := by
  simp only [startSend] at h
  split at h
  · cases h
  next hcheck =>
    split at h
    · cases h
    · split at h
      · cases h
        simp only [not_or, ne_eq, not_not] at hcheck
        exact ⟨rfl, hcheck.2.2⟩
      · cases h

/-- A call that moves to a point without an attempt. -/
theorem setCall_attempt {w : World} {i j : CallId} {c : Call} {attempt : Attempt}
    (hc : c.attempt? = none ∨ c.attempt? = (w.call i).attempt?)
    (h : ((w.setCall i c).call j).attempt? = some attempt) :
    (w.call j).attempt? = some attempt := by
  by_cases hj : j = i
  · subst hj
    rw [World.setCall_self] at h
    rcases hc with hc | hc
    · rw [hc] at h
      cases h
    · rw [← hc]
      exact h
  · rw [World.setCall_other w c hj] at h
    exact h

/-- An attempt under way was under way before, or has just read its reply as
`PENDING`. -/
theorem step_attempt {w w' : World} {a : Action} {j : CallId} {attempt : Attempt}
    (h : step w a = some w') (hj : (w'.call j).attempt? = some attempt) :
    (w.call j).attempt? = some attempt ∨
      (∃ messageId finalAttempt, a = .send j messageId finalAttempt) ∧
        w.messages.find? (.id attempt.message.id) = some attempt.message ∧
          attempt.message.status = .pending := by
  obtain ⟨message, t, rfl, _, rfl⟩ | ⟨directory, rfl, rfl⟩ | ⟨i, c, t, hturn, rfl⟩ := step_cases h
  · exact Or.inl hj
  · exact Or.inl hj
  · cases hturn with
    | @sends messageId finalAttempt message channel hcall hmessage =>
        by_cases hji : j = i
        · subst hji
          simp only [World.setCall_self] at hj
          obtain ⟨hm, hpending⟩ := attempt?_startSend hj
          refine Or.inr ⟨⟨messageId, finalAttempt, rfl⟩, ?_, by rw [hm]; exact hpending⟩
          rw [hm, Message.id_of_find? hmessage]
          exact hmessage
        · simp only [World.setCall_other w _ hji] at hj
          exact Or.inl hj
    | calls hcall | accepted hcall | marks hcall | taken hcall | remarks hcall =>
        exact Or.inl (setCall_attempt (Or.inr (by rw [hcall]; rfl)) hj)
    | prepareFails | rejected | markSentFails | remarkFails | recordFails =>
        exact Or.inl (setCall_attempt (Or.inl (attempt?_catchSend ..)) hj)
    | sweep => exact Or.inl (setCall_attempt (Or.inl (attempt?_startSweep _)) hj)
    | fail => exact Or.inl (setCall_attempt (Or.inl (attempt?_afterFail ..)) hj)
    | receive => exact Or.inl (setCall_attempt (Or.inl (attempt?_startReceipt ..)) hj)
    | matchInternal => exact Or.inl (setCall_attempt (Or.inl (attempt?_matchInternal ..)) hj)
    | cover | transition =>
        exact Or.inl (setCall_attempt (Or.inl (attempt?_afterTransition ..)) hj)
    | fetch => exact Or.inl (setCall_attempt (Or.inl (attempt?_startDelivering _)) hj)
    | retries => exact Or.inl (setCall_attempt (Or.inl (attempt?_startRetry ..)) hj)
    | _ => exact Or.inl (setCall_attempt (Or.inl rfl) hj)

/-! ## After the commit of `markSent` -/

/-- The step brings the reply back to `PENDING`: a retry, or a receipt with
that status. -/
def Resets (id : Id) (w : World) (a : Action) : Prop :=
  match a with
  | .markRetried i _ => w.call i = .retrying id
  | .transition i _ => ∃ receipt message rest changed,
      w.call i = .applying receipt (message :: rest) changed ∧ message.id = id ∧
        receipt.status = .pending
  | _ => False

/-- The step starts `adapter.sendMessage` for the reply, in call `i`. -/
def StartsSend (id : Id) (i : CallId) (w : World) (a : Action) : Prop :=
  a = .sendMessage i ∧ ∃ attempt, w.call i = .prepared attempt ∧ attempt.message.id = id

/-- The step is the update of `fail`, and the reply becomes `FAILED`. -/
def FailsReply (id : Id) (w : World) (a : Action) (w' : World) : Prop :=
  (∃ i now, a = .fail i now) ∧ ∃ m m', w.messages.find? (.id id) = some m ∧
    w'.messages.find? (.id id) = some m' ∧ m.status ≠ .failed ∧ m'.status = .failed

/-- The reply exists and is not `PENDING`. -/
def World.Settled (w : World) (id : Id) : Prop :=
  ∃ m, w.messages.find? (.id id) = some m ∧ m.status ≠ .pending

/-- A settled reply stays settled until it is reset. -/
theorem settled_step {w w' : World} {a : Action} {id : Id} (h : step w a = some w')
    (hs : w.Settled id) (hreset : ¬ Resets id w a) : w'.Settled id := by
  obtain ⟨m, hm, hstatus⟩ := hs
  obtain ⟨m', hm', hrow⟩ := step_row h hm
  have hid := Message.id_of_find? hm
  refine ⟨m', hm', ?_⟩
  cases hrow with
  | same => exact hstatus
  | sent => simp [markedSent]
  | failed => simp [failed]
  | fetched => simp [fetched]
  | @received i now receipt message _ rest changed hcall hmid hread hadv =>
      rw [status_received]
      intro hpending
      exact hreset ⟨receipt, message, rest, changed, hcall, hmid.trans hid, hpending⟩
  | @retried i now _ hcall =>
      rw [hid] at hcall
      exact absurd hcall hreset

/-- No update of `fail` changes a settled reply. -/
theorem not_failsReply_of_settled {w w' : World} {a : Action} {id : Id}
    (h : step w a = some w') (hs : w.Settled id) : ¬ FailsReply id w a w' := by
  rintro ⟨⟨i, now, rfl⟩, m, m', hm, hm', hne, hfailed⟩
  obtain ⟨m1, hm1, hstatus⟩ := hs
  rw [hm] at hm1
  cases hm1
  obtain ⟨m2, hm2, hrow⟩ := step_row h hm
  rw [hm'] at hm2
  cases hm2
  cases hrow with
  | same => exact hne hfailed
  | failed _ hpending => exact hstatus hpending

/-- Whatever `markSent` finds, it leaves no `PENDING` reply behind. -/
theorem settled_of_updated {w w' : World} {t : Messages} {id : Id} {m : Message}
    {providerMessageId : Option String} {sentAt now : Date}
    (ht : markSent w.messages id providerMessageId sentAt now = some t) (hw' : w'.messages = t)
    (hm : w.messages.find? (.id id) = some m) : w'.Settled id := by
  refine ⟨_, by rw [hw']; exact find?_markSent ht hm, ?_⟩
  split
  · simp [markedSent]
  next hp =>
    intro hpending
    exact hp (by simp [Message.id_of_find? hm, hpending])

/-- Once the transaction of `markSent` has committed, its reply is settled. -/
theorem settled_of_markSent {w w' : World} {i : CallId} {now : Date} {attempt : Attempt}
    {m : Message} (h : step w (.markSent i now) = some w') (hdone : w'.call i = .recording attempt)
    (hm : w.messages.find? (.id attempt.message.id) = some m) :
    w'.Settled attempt.message.id := by
  obtain ⟨c, t, hturn, rfl⟩ := turn_of_stepMarkSent h
  simp only [World.setCall_self] at hdone
  subst hdone
  cases hturn with
  | marks _ ht | remarks _ ht => exact settled_of_updated ht rfl hm

/-- The reply of every attempt under way is in the table. -/
def World.Known (w : World) : Prop :=
  ∀ i attempt, (w.call i).attempt? = some attempt →
    ∃ m, w.messages.find? (.id attempt.message.id) = some m

/-- An attempt under way after a step had its reply in the table before. -/
theorem find?_of_attempt {w w' : World} {a : Action} {i : CallId} {attempt : Attempt}
    (hk : w.Known) (h : step w a = some w') (hcall : (w'.call i).attempt? = some attempt) :
    ∃ m, w.messages.find? (.id attempt.message.id) = some m := by
  rcases step_attempt h hcall with hbefore | ⟨_, hread, _⟩
  · exact hk i attempt hbefore
  · exact ⟨_, hread⟩

theorem known_step {w w' : World} {a : Action} (hk : w.Known) (h : step w a = some w') :
    w'.Known := by
  intro i attempt hcall
  obtain ⟨m, hm⟩ := find?_of_attempt hk h hcall
  obtain ⟨m', hm', _⟩ := step_row h hm
  exact ⟨m', hm'⟩

/-- No call of a world is under way. -/
def World.Quiet (w : World) : Prop := ∀ i, w.call i = .idle

theorem known_of_quiet {w : World} (h : w.Quiet) : w.Known := by
  intro i attempt hcall
  rw [h i] at hcall
  cases hcall

/-- The reply is settled, and no call that was idle in `w₀` has an attempt on
it. -/
structure SettledSince (id : Id) (w₀ w : World) : Prop where
  settled : w.Settled id
  untouched : ∀ j, w₀.call j = .idle → ∀ attempt, (w.call j).attempt? = some attempt →
    attempt.message.id ≠ id

theorem settledSince_refl {id : Id} {w : World} (h : w.Settled id) : SettledSince id w w where
  settled := h
  untouched j hj attempt hcall := by
    rw [hj] at hcall
    cases hcall

theorem settledSince_step {id : Id} {w₀ w w' : World} {a : Action} (hs : SettledSince id w₀ w)
    (h : step w a = some w') (hreset : ¬ Resets id w a) : SettledSince id w₀ w' where
  settled := settled_step h hs.settled hreset
  untouched j hj attempt hcall := by
    rcases step_attempt h hcall with hbefore | ⟨_, hread, hpending⟩
    · exact hs.untouched j hj attempt hbefore
    · rintro rfl
      obtain ⟨m, hm, hstatus⟩ := hs.settled
      rw [hread] at hm
      cases hm
      exact hstatus hpending

/-- After the commit of `markSent`, and until the reply is reset, no attempt
that starts later sends it again, and no update of `fail` makes it `FAILED`. -/
theorem not_resent_after_markSent {w₀ w₁ w₂ : World} {as bs : List Action} {i : CallId} {now : Date}
    {attempt : Attempt} (hstart : w₀.Quiet) (hrun : machine.run w₀ as = some w₁)
    (hstep : step w₁ (.markSent i now) = some w₂) (hdone : w₂.call i = .recording attempt)
    (hno : machine.Along (fun w a _ => ¬ Resets attempt.message.id w a) w₂ bs) :
    machine.Along (fun w a w' => (∀ j, w₂.call j = .idle → ¬ StartsSend attempt.message.id j w a) ∧
      ¬ FailsReply attempt.message.id w a w') w₂ bs := by
  have hknown : w₁.Known :=
    Machine.invariant (I := World.Known) (fun _ _ _ hs h => known_step hs h)
      (known_of_quiet hstart) hrun
  obtain ⟨m, hm⟩ := find?_of_attempt hknown hstep (by rw [hdone]; rfl)
  have hsettled : w₂.Settled attempt.message.id := settled_of_markSent hstep hdone hm
  refine Machine.along_of_along (I := SettledSince attempt.message.id w₂)
    (fun w a w' hs h hreset => ?_) (settledSince_refl hsettled) hno
  refine ⟨settledSince_step hs h hreset, ?_, not_failsReply_of_settled h hs.settled⟩
  rintro j hj ⟨rfl, sending, hcall, hid⟩
  exact hs.untouched j hj sending (by rw [hcall]; rfl) hid

theorem quiet_init : World.init.Quiet := fun _ => rfl

/-- A run in which the provider accepts the reply. -/
def sentRun : List Action :=
  [.insert exampleReply, .send 0 "m" false, .sendMessage 0, .accepted 0 (some "p1") none 1]

/-- The theorem at a run: the commit of `markSent`, and then a second job. -/
theorem not_resent_sentRun :
    ∃ w₁ w₂, machine.run World.init sentRun = some w₁ ∧
      machine.step w₁ (.markSent 0 2) = some w₂ ∧
      machine.Along (fun w a w' => (∀ j, w₂.call j = .idle → ¬ StartsSend "m" j w a) ∧
        ¬ FailsReply "m" w a w') w₂ [.recordSuccess 0, .send 1 "m" true] := by
  have hlast : ((machine.run World.init sentRun).bind fun w =>
      (machine.step w (.markSent 0 2)).map fun w' => w'.call 0)
        = some (.recording ⟨exampleReply, exampleChannel, false⟩) := by decide
  obtain ⟨w₁, w₂, hw₁, hw₂, hdone⟩ := machine.exists_last hlast
  refine ⟨w₁, w₂, hw₁, hw₂, not_resent_after_markSent quiet_init hw₁ hw₂ hdone ?_⟩
  intro s _
  refine ⟨id, fun s' _ => ⟨id, trivial⟩⟩

/-! ## Before the commit of `markSent` -/

/-- The provider has accepted the reply, and the transaction of `markSent`
fails.  The error is retried, and the next attempt finds the reply `PENDING`. -/
def resentRun : List Action := [.markSentFails 0 (.other none), .send 1 "m" false]

/-- The second attempt sends the reply again. -/
theorem resentRun_sends :
    ∃ w₁ w₂ w₃ w₄ attempt, machine.run World.init (sentRun.take 3) = some w₁ ∧
      w₁.call 0 = .calling ⟨exampleReply, exampleChannel, false⟩ ∧
      machine.step w₁ (.accepted 0 (some "p1") none 1) = some w₂ ∧
      machine.run w₂ resentRun = some w₃ ∧ machine.step w₃ (.sendMessage 1) = some w₄ ∧
      w₃.call 1 = .prepared attempt ∧ attempt.message.id = "m" := by
  have hfirst : ((machine.run World.init (sentRun.take 3)).bind fun w =>
      (machine.step w (.accepted 0 (some "p1") none 1)).map fun w' =>
        (w.call 0, (machine.run w' resentRun).bind fun w =>
          (machine.step w (.sendMessage 1)).map fun _ => w.call 1))
        = some (.calling ⟨exampleReply, exampleChannel, false⟩,
            some (.prepared ⟨exampleReply, exampleChannel, false⟩)) := by decide
  obtain ⟨w₁, w₂, hw₁, hw₂, hview⟩ := machine.exists_last hfirst
  rw [Prod.mk.injEq] at hview
  obtain ⟨w₃, w₄, hw₃, hw₄, hcall⟩ := machine.exists_last hview.2
  exact ⟨w₁, w₂, w₃, w₄, _, hw₁, hview.1, hw₂, hw₃, hw₄, hcall, rfl⟩

/-- From the adapter's answer on, the reply may be sent again without a retry
of an agent. -/
theorem not_sent_once :
    ¬ ∀ (as bs : List Action) (w₁ w₂ : World) (i : CallId) (attempt : Attempt)
        (providerMessageId : Option String) (providerTimestamp : Option Date) (now : Date),
      machine.run World.init as = some w₁ → w₁.call i = .calling attempt →
      machine.step w₁ (.accepted i providerMessageId providerTimestamp now) = some w₂ →
      (∀ b ∈ bs, b.isRetry = false) →
      machine.Along (fun w b w' => (∀ j, ¬ StartsSend attempt.message.id j w b) ∧
        ¬ FailsReply attempt.message.id w b w') w₂ bs := by
  intro h
  obtain ⟨w₁, w₂, w₃, w₄, attempt, hw₁, hcalling, hw₂, hw₃, hw₄, hcall, hid⟩ := resentRun_sends
  have hgood := h _ (resentRun ++ [.sendMessage 1]) w₁ w₂ 0 _ _ _ _ hw₁ hcalling hw₂ (by decide)
  exact (hgood.last hw₃ hw₄).1 1 ⟨rfl, attempt, hcall, hid⟩

end Vynor.Delivery
