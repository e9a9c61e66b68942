import Vynor.Delivery.Accepted

/-!
# The provider id of an accepted reply

The provider id is written by the update of `markSent`, on a reply that is still
`PENDING`.  While the adapter is called, the sweep can make the reply `FAILED`,
and a receipt that names VYNOR's own id can move it on.  The update then finds no
row, and the id is lost.
-/

namespace Vynor.Delivery

open Lib (Table Machine)

/-- The calls are one send, receipts, web chat polls and the sweep. -/
def Action.OfOneSend (s : CallId) : Action → Prop
  | .send i _ _ => i = s
  | .retry _ _ _ => False
  | .markRetried _ _ => False
  | _ => True

/-- No other message of the channel carries the provider id. -/
def Unclaimed (t : Messages) (message : Message) (providerMessageId : String) : Prop :=
  ∀ m ∈ t.rows, m.providerAccountId = message.providerAccountId →
    m.providerMessageId = some providerMessageId → m.id = message.id

/-- The stored message carries the provider id, and a receipt with that id finds it. -/
def Carries (w : World) (message : Message) (providerMessageId : String) : Prop :=
  ∃ m, w.messages.find? (.id message.id) = some m ∧ m.providerMessageId = some providerMessageId ∧
    ∀ receipt : DeliveryReceipt, receipt.providerMessageId = providerMessageId →
      receipt.isWatermark = false →
      startReceipt w message.providerAccountId receipt = .applying receipt [m] 0

/-! ## What stays of a message -/

@[simp] theorem providerMessageId_received (receipt : DeliveryReceipt) (now : Date) (m : Message) :
    (received receipt now m).providerMessageId = m.providerMessageId := by
  unfold received
  cases receipt.status <;> rfl

@[simp] theorem providerAccountId_received (receipt : DeliveryReceipt) (now : Date) (m : Message) :
    (received receipt now m).providerAccountId = m.providerAccountId := by
  unfold received
  cases receipt.status <;> rfl

/-- No step moves a message to another channel. -/
theorem RowStep.providerAccountId {w : World} {a : Action} {m m' : Message} (h : RowStep w a m m') :
    m'.providerAccountId = m.providerAccountId := by
  cases h with
  | received => exact providerAccountId_received ..
  | same | sent | failed | fetched | retried => rfl

/-- Only `markSent` writes a provider id. -/
theorem RowStep.providerMessageId {w : World} {a : Action} {m m' : Message} (h : RowStep w a m m')
    (hmarks : ∀ i, (w.call i).marks ≠ some m.id) : m'.providerMessageId = m.providerMessageId := by
  cases h with
  | sent hcall => exact absurd hcall (hmarks _)
  | received => exact providerMessageId_received ..
  | same | failed | fetched | retried => rfl

/-- A call that marks a reply has an attempt on it. -/
theorem attempt?_of_marks {c : Call} {id : Id} (h : c.marks = some id) :
    ∃ attempt, c.attempt? = some attempt ∧ attempt.message.id = id := by
  cases c with
  | marking attempt providerMessageId sentAt => exact ⟨attempt, rfl, Option.some.inj h⟩
  | remarking attempt sentAt => exact ⟨attempt, rfl, Option.some.inj h⟩
  | _ => cases h

/-! ## One send -/

/-- The one send, and the reply it read. -/
structure Single (s : CallId) (w : World) : Prop where
  only : ∀ i attempt, (w.call i).attempt? = some attempt → i = s
  stored : ∀ i attempt, (w.call i).attempt? = some attempt →
    ∃ m, w.messages.find? (.id attempt.message.id) = some m ∧
      m.providerAccountId = attempt.message.providerAccountId

theorem single_of_quiet {s : CallId} {w : World} (h : w.Quiet) : Single s w where
  only i attempt hcall := by
    rw [h i] at hcall
    cases hcall
  stored i attempt hcall := by
    rw [h i] at hcall
    cases hcall

theorem single_step {s : CallId} {w w' : World} {a : Action} (hw : Single s w)
    (h : step w a = some w') (hone : a.OfOneSend s) : Single s w' where
  only i attempt hcall := by
    rcases step_attempt h hcall with hbefore | ⟨⟨messageId, finalAttempt, rfl⟩, _, _⟩
    · exact hw.only i attempt hbefore
    · exact hone
  stored i attempt hcall := by
    have hbefore : ∃ m, w.messages.find? (.id attempt.message.id) = some m ∧
        m.providerAccountId = attempt.message.providerAccountId := by
      rcases step_attempt h hcall with hbefore | ⟨_, hread, _⟩
      · exact hw.stored i attempt hbefore
      · exact ⟨_, hread, rfl⟩
    obtain ⟨m, hm, haccount⟩ := hbefore
    obtain ⟨m', hm', hrow⟩ := step_row h hm
    exact ⟨m', hm', hrow.providerAccountId.trans haccount⟩

/-! ## The update of `markSent` -/

/-- The row after the update of `markSent`. -/
def marked (message : Message) (providerMessageId : String) (sentAt now : Date) (m : Message) :
    Message :=
  if m.id = message.id && m.status = .pending then
    markedSent (some providerMessageId) sentAt now m
  else m

section Marked

variable {t : Messages} {message m : Message} {providerMessageId : String} {sentAt now : Date}

@[simp] theorem id_marked : (marked message providerMessageId sentAt now m).id = m.id := by
  unfold marked
  split <;> rfl

/-- A provider id in the table after the update was there, or is the one that was
written. -/
theorem provider_mem_keys_marked {channelId : Id} {providerId : String}
    (h : .provider channelId providerId ∈ (marked message providerMessageId sentAt now m).keys) :
    .provider channelId providerId ∈ m.keys ∨
      m.id = message.id ∧ m.providerAccountId = channelId ∧ providerId = providerMessageId := by
  unfold marked at h
  split at h
  next hp =>
    simp only [Bool.and_eq_true, decide_eq_true_eq] at hp
    obtain ⟨haccount, hid⟩ := Message.provider_mem_keys.mp h
    exact Or.inr ⟨hp.1, haccount, (Option.some.inj hid).symm⟩
  · exact Or.inl h

/-- Where no other message carries the provider id, the update of `markSent` does
not fail. -/
theorem exists_markSent (hfree : Unclaimed t message providerMessageId)
    (haccount : ∀ m ∈ t.rows, m.id = message.id → m.providerAccountId = message.providerAccountId) :
    ∃ t', markSent t message.id (some providerMessageId) sentAt now = some t' := by
  apply Table.exists_updateMany?
  intro a ha b hb hab k hka hkb
  cases k with
  | id id =>
      have hida : a.id = id := by
        rw [← id_marked (m := a)]
        exact Message.id_mem_keys.mp hka
      have hidb : b.id = id := by
        rw [← id_marked (m := b)]
        exact Message.id_mem_keys.mp hkb
      exact hab (Message.id_mem_keys.mpr hida) (Message.id_mem_keys.mpr hidb)
  | provider channelId providerId =>
      -- A row with the id that is written is the row of the message.
      have hown : ∀ c ∈ t.rows, channelId = message.providerAccountId →
          providerId = providerMessageId → .provider channelId providerId ∈ c.keys →
          c.id = message.id := by
        rintro c hc rfl rfl hkc
        obtain ⟨haccount, hid⟩ := Message.provider_mem_keys.mp hkc
        exact hfree c hc haccount hid
      have hids : .provider channelId providerId ∈ a.keys ∧ .provider channelId providerId ∈ b.keys ∨
          a.id = message.id ∧ b.id = message.id := by
        rcases provider_mem_keys_marked hka with hka | ⟨hida, hca, hpa⟩
        · rcases provider_mem_keys_marked hkb with hkb | ⟨hidb, hcb, hpb⟩
          · exact Or.inl ⟨hka, hkb⟩
          · exact Or.inr ⟨hown a ha (hcb.symm.trans (haccount b hb hidb)) hpb hka, hidb⟩
        · rcases provider_mem_keys_marked hkb with hkb | ⟨hidb, _, _⟩
          · exact Or.inr ⟨hida, hown b hb (hca.symm.trans (haccount a ha hida)) hpa hkb⟩
          · exact Or.inr ⟨hida, hidb⟩
      rcases hids with ⟨hka, hkb⟩ | ⟨hida, hidb⟩
      · exact hab hka hkb
      · exact hab (Message.id_mem_keys.mpr hida) (Message.id_mem_keys.mpr hidb)

end Marked

/-! ## After the update -/

/-- The call is not on its way to an update of `markSent`. -/
def Call.beyond : Call → Bool
  | .idle => false
  | .prepared _ => false
  | .calling _ => false
  | .marking _ _ _ => false
  | .remarking _ _ => false
  | _ => true

@[simp] theorem beyond_catchSend (attempt : Attempt) (error : Thrown) :
    (catchSend attempt error).beyond = true := by
  simp only [catchSend]
  split <;> rfl

@[simp] theorem beyond_afterFail (code text : String) (rest : List Id) :
    (afterFail code text rest).beyond = true := by
  cases rest <;> rfl

@[simp] theorem beyond_matchInternal (w : World) (channelId : Id) (receipt : DeliveryReceipt) :
    (matchInternal w channelId receipt).beyond = true := by
  rw [matchInternal]
  split
  · split <;> rfl
  · rfl

@[simp] theorem beyond_afterTransition (receipt : DeliveryReceipt) (rest : List Message)
    (changed : Nat) : (afterTransition receipt rest changed).beyond = true := by
  simp only [afterTransition]
  split <;> rfl

@[simp] theorem beyond_startDelivering (rows : List Message) :
    (startDelivering rows).beyond = true := by
  simp only [startDelivering]
  split <;> rfl

theorem marks_of_beyond {c : Call} (h : c.beyond = true) : c.marks = none := by
  cases c with
  | marking | remarking => cases h
  | _ => rfl

/-- A call that moves away from its update of `markSent`. -/
theorem beyond_setCall {w : World} {i j : CallId} {c : Call} (hj : (w.call j).beyond = true)
    (hc : (w.call i).beyond = true → c.beyond = true) : ((w.setCall i c).call j).beyond = true := by
  by_cases hji : j = i
  · subst hji
    rw [World.setCall_self]
    exact hc hj
  · rw [World.setCall_other w c hji]
    exact hj

theorem beyond_step {w w' : World} {a : Action} {j : CallId} (hj : (w.call j).beyond = true)
    (h : step w a = some w') : (w'.call j).beyond = true := by
  obtain ⟨message, t, rfl, _, rfl⟩ | ⟨directory, rfl, rfl⟩ | ⟨i, c, t, hturn, rfl⟩ := step_cases h
  · exact hj
  · exact hj
  · refine beyond_setCall hj fun hi => ?_
    cases hturn with
    | sends hcall | calls hcall | accepted hcall | taken hcall | receive hcall | retries hcall =>
        rw [hcall] at hi
        cases hi
    | prepareFails | rejected | markSentFails | remarkFails | recordFails => exact beyond_catchSend ..
    | sweep => exact beyond_afterFail ..
    | fail => exact beyond_afterFail ..
    | matchInternal => exact beyond_matchInternal ..
    | cover | transition => exact beyond_afterTransition ..
    | fetch => exact beyond_startDelivering _
    | _ => rfl

/-- The one send is past its update of `markSent`. -/
structure Marked (s : CallId) (w : World) : Prop where
  single : Single s w
  beyond : (w.call s).beyond = true

theorem Marked.marks {s : CallId} {w : World} (hw : Marked s w) (i : CallId) (id : Id) :
    (w.call i).marks ≠ some id := by
  intro h
  obtain ⟨attempt, hattempt, _⟩ := attempt?_of_marks h
  rw [hw.single.only i attempt hattempt, marks_of_beyond hw.beyond] at h
  cases h

/-- After `markSent` a message keeps its channel and its provider id. -/
structure SameIds (message : Id) (account : Id) (providerMessageId : Option String) (w : World) :
    Prop where
  stored : ∃ m, w.messages.find? (.id message) = some m ∧ m.providerAccountId = account ∧
    m.providerMessageId = providerMessageId

theorem sameIds_step {s : CallId} {w w' : World} {a : Action} {message account : Id}
    {providerMessageId : Option String} (hw : Marked s w)
    (hids : SameIds message account providerMessageId w) (h : step w a = some w') :
    SameIds message account providerMessageId w' := by
  obtain ⟨m, hm, haccount, hid⟩ := hids.stored
  obtain ⟨m', hm', hrow⟩ := step_row h hm
  exact ⟨m', hm', hrow.providerAccountId.trans haccount,
    (hrow.providerMessageId fun i => hw.marks i m.id).trans hid⟩

/-- A message with a provider id is found by receipts with that id. -/
theorem carries_of_sameIds {w : World} {message : Message} {providerMessageId : String}
    (h : SameIds message.id message.providerAccountId (some providerMessageId) w) :
    Carries w message providerMessageId := by
  obtain ⟨m, hm, haccount, hid⟩ := h.stored
  refine ⟨m, hm, hid, ?_⟩
  rintro receipt rfl hplain
  have hfind : w.messages.find? (.provider message.providerAccountId receipt.providerMessageId)
      = some m :=
    Table.find?_eq_some.mpr
      ⟨(Table.find?_eq_some.mp hm).1, Message.provider_mem_keys.mpr ⟨haccount, hid⟩⟩
  simp only [startReceipt, hplain, hfind]
  rfl

/-! ## Runs -/

/-- Every step of a run with one send keeps that it is the only one. -/
theorem single_of_run {s : CallId} {w w' : World} {as : List Action} (hw : Single s w)
    (has : ∀ a ∈ as, a.OfOneSend s) (h : machine.run w as = some w') : Single s w' :=
  Machine.invariant_along (M := machine) (P := fun _ a _ => a.OfOneSend s) (I := Single s)
    (fun _ _ _ hI hs hone => single_step hI hs hone) hw
    (Machine.along_of_forall (fun a ha _ _ _ => has a ha) w) h

/-- The update of `markSent` takes place, and what the row is then. -/
theorem markSent_of_unclaimed {s : CallId} {w w' : World} {attempt : Attempt}
    {providerMessageId : String} {sentAt now : Date} (hw : Single s w)
    (hcall : w.call s = .marking attempt (some providerMessageId) sentAt)
    (hfree : Unclaimed w.messages attempt.message providerMessageId)
    (h : step w (.markSent s now) = some w') :
    w'.call s = .recording attempt ∧ ∀ m, w.messages.find? (.id attempt.message.id) = some m →
      w'.messages.find? (.id attempt.message.id)
        = some (marked attempt.message providerMessageId sentAt now m) := by
  obtain ⟨m, hm, haccount⟩ := hw.stored s attempt (by rw [hcall]; rfl)
  have hown : ∀ c ∈ w.messages.rows, c.id = attempt.message.id →
      c.providerAccountId = attempt.message.providerAccountId := by
    intro c hc hid
    have hfind := Message.find?_of_mem hc
    rw [hid, hm] at hfind
    cases hfind
    exact haccount
  obtain ⟨t, ht⟩ : ∃ t, markSent w.messages attempt.message.id (some providerMessageId) sentAt now
      = some t := exists_markSent hfree hown
  simp only [step, stepMarkSent, hcall, ht, Option.some.injEq] at h
  subst h
  refine ⟨World.setCall_self .., fun m hm => ?_⟩
  exact find?_markSent ht hm

/-- In every run of one send with receipts and sweeps, and in every state after its
update of `markSent`, the message carries the provider id exactly when the update
found it `PENDING`, or carrying that id already. -/
theorem carries_iff {w₀ w₁ w₂ w₃ : World} {as bs : List Action} {s : CallId} {attempt : Attempt}
    {providerMessageId : String} {sentAt now : Date} (hstart : w₀.Quiet)
    (has : ∀ a ∈ as, a.OfOneSend s) (hbs : ∀ b ∈ bs, b.OfOneSend s)
    (hrun : machine.run w₀ as = some w₁)
    (hcall : w₁.call s = .marking attempt (some providerMessageId) sentAt)
    (hfree : Unclaimed w₁.messages attempt.message providerMessageId)
    (hstep : machine.step w₁ (.markSent s now) = some w₂)
    (hlater : machine.run w₂ bs = some w₃) :
    Carries w₃ attempt.message providerMessageId ↔
      ∃ m, w₁.messages.find? (.id attempt.message.id) = some m ∧
        (m.status = .pending ∨ m.providerMessageId = some providerMessageId) := by
  have hsingle : Single s w₁ := single_of_run (single_of_quiet hstart) has hrun
  obtain ⟨m, hm, haccount⟩ := hsingle.stored s attempt (by rw [hcall]; rfl)
  have hstep : step w₁ (.markSent s now) = some w₂ := hstep
  obtain ⟨hdone, hrow⟩ := markSent_of_unclaimed hsingle hcall hfree hstep
  -- The ids of the message from the update on.
  have hids : SameIds attempt.message.id attempt.message.providerAccountId
      (marked attempt.message providerMessageId sentAt now m).providerMessageId w₃ := by
    have hboth : Marked s w₃ ∧ SameIds attempt.message.id attempt.message.providerAccountId
        (marked attempt.message providerMessageId sentAt now m).providerMessageId w₃ := by
      refine Machine.invariant_along (M := machine) (P := fun _ a _ => Action.OfOneSend s a)
        (I := fun w => Marked s w ∧ SameIds attempt.message.id attempt.message.providerAccountId
          (marked attempt.message providerMessageId sentAt now m).providerMessageId w)
        (fun w a w' hI hs hone => ⟨⟨single_step hI.1.single hs hone, beyond_step hI.1.beyond hs⟩,
          sameIds_step hI.1 hI.2 hs⟩) ?_
        (Machine.along_of_forall (fun a ha _ _ _ => hbs a ha) w₂) hlater
      refine ⟨⟨single_step hsingle hstep trivial, by rw [hdone]; rfl⟩, ⟨_, hrow m hm, ?_, rfl⟩⟩
      unfold marked
      split <;> exact haccount
    exact hboth.2
  have hmid := Message.id_of_find? hm
  have hvalue : (marked attempt.message providerMessageId sentAt now m).providerMessageId
      = some providerMessageId ↔ m.status = .pending ∨ m.providerMessageId = some providerMessageId := by
    unfold marked
    split
    next hp =>
      simp only [Bool.and_eq_true, decide_eq_true_eq] at hp
      exact ⟨fun _ => Or.inl hp.2, fun _ => rfl⟩
    next hp =>
      constructor
      · exact Or.inr
      · rintro (hpending | hid)
        · exact absurd (by simp [hmid, hpending]) hp
        · exact hid
  constructor
  · rintro ⟨m₃, hm₃, hid, _⟩
    obtain ⟨stored, hstored, _, hsame⟩ := hids.stored
    rw [hm₃] at hstored
    cases hstored
    exact ⟨m, hm, hvalue.mp (hsame.symm.trans hid)⟩
  · rintro ⟨m₁, hm₁, hcond⟩
    rw [hm] at hm₁
    cases hm₁
    rw [hvalue.mpr hcond] at hids
    exact carries_of_sameIds hids

instance (s : CallId) (a : Action) : Decidable (a.OfOneSend s) := by
  unfold Action.OfOneSend
  split <;> infer_instance

instance (t : Messages) (message : Message) (providerMessageId : String) :
    Decidable (Unclaimed t message providerMessageId) :=
  inferInstanceAs (Decidable (∀ m ∈ t.rows, _ → _ → _))

/-- A receipt of the provider. -/
def providerReceipt (providerMessageId : String) (timestamp : Date) : DeliveryReceipt :=
  ⟨providerMessageId, "visitor", .delivered, timestamp, none, none, none⟩

/-- The theorem at a run: the reply was `PENDING`, and a receipt with the id the
provider gave it finds it. -/
theorem carries_sentRun :
    ∃ w₁ w₂ w₃, machine.run World.init sentRun = some w₁ ∧
      machine.step w₁ (.markSent 0 2) = some w₂ ∧
      machine.run w₂ [.receive 1 "channel" (providerReceipt "p1" 3), .transition 1 4] = some w₃ ∧
      Carries w₃ exampleReply "p1" := by
  have hview : ((machine.run World.init sentRun).bind fun w =>
      (machine.step w (.markSent 0 2)).map fun w' =>
        (decide (w.call 0 = .marking ⟨exampleReply, exampleChannel, false⟩ (some "p1") 1),
          decide (Unclaimed w.messages exampleReply "p1"), w.replyStatus "m",
          (machine.run w' [.receive 1 "channel" (providerReceipt "p1" 3), .transition 1 4]).isSome))
      = some (true, true, some .pending, true) := by decide
  obtain ⟨w₁, w₂, hrun, hstep, hpoints⟩ := machine.exists_last hview
  simp only [Prod.mk.injEq, decide_eq_true_eq] at hpoints
  obtain ⟨hcall, hfree, hstatus, hlater⟩ := hpoints
  obtain ⟨w₃, hlater⟩ := Option.isSome_iff_exists.mp hlater
  obtain ⟨m, hm, _, hpending⟩ := World.replyStatus_eq_some.mp hstatus
  refine ⟨w₁, w₂, w₃, hrun, hstep, hlater, ?_⟩
  exact (carries_iff quiet_init (by decide) (by decide) hrun hcall hfree hstep hlater).mpr
    ⟨m, hm, Or.inl hpending⟩

/-! ## A callback before the answer -/

/-- The endpoint of a channel calls back about the reply, under VYNOR's own id,
before it answers with an id of its own. -/
def callbackRun : List Action :=
  [.insert exampleReply, .send 0 "m" false, .sendMessage 0,
    .receive 1 "channel" (providerReceipt "m" 1), .matchInternal 1, .transition 1 2,
    .accepted 0 (some "p1") none 3]

/-- The id of the provider is not stored. -/
theorem not_carries :
    ¬ ∀ (w₀ w₁ w₂ w₃ : World) (as bs : List Action) (s : CallId) (attempt : Attempt)
        (providerMessageId : String) (sentAt now : Date), w₀.Quiet →
      (∀ a ∈ as, a.OfOneSend s) → (∀ b ∈ bs, b.OfOneSend s) → machine.run w₀ as = some w₁ →
      w₁.call s = .marking attempt (some providerMessageId) sentAt →
      Unclaimed w₁.messages attempt.message providerMessageId →
      machine.step w₁ (.markSent s now) = some w₂ → machine.run w₂ bs = some w₃ →
      Carries w₃ attempt.message providerMessageId := by
  intro hall
  have hview : ((machine.run World.init callbackRun).bind fun w =>
      (machine.step w (.markSent 0 4)).map fun w' =>
        (decide (w.call 0 = .marking ⟨exampleReply, exampleChannel, false⟩ (some "p1") 3),
          decide (Unclaimed w.messages exampleReply "p1"),
          w'.messages.rows.all fun m => m.status = .delivered && m.providerMessageId = none))
      = some (true, true, true) := by decide
  obtain ⟨w₁, w₂, hrun, hstep, hpoints⟩ := machine.exists_last hview
  simp only [Prod.mk.injEq, decide_eq_true_eq] at hpoints
  obtain ⟨hcall, hfree, hrows⟩ := hpoints
  obtain ⟨m, hm, hid, _⟩ := hall World.init w₁ w₂ w₂ callbackRun [] 0 _ "p1" 3 4 quiet_init
    (by decide) (by decide) hrun hcall hfree hstep rfl
  have hrow := List.all_eq_true.mp hrows m (Table.find?_eq_some.mp hm).1
  simp [hid] at hrow

end Vynor.Delivery
