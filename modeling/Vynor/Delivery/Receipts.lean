import Vynor.Delivery.System

/-!
# Concurrent receipts

Each receipt of a message reads it, and later updates it if the status is still
the one it read.  An update that comes too late changes nothing, and its call
returns all the same, so the status of that receipt is lost.

`ReceiptRun` is a complete run of the calls for some receipts of one sent
message, and nothing else.  The message ends up in the highest status of its
receipts exactly when some receipt with that status made its update in time.
-/

namespace Vynor.Delivery

open Lib (Table Machine)

section Calls

variable (message : Message) (receipts : List DeliveryReceipt)

/-- The receipt names the message: by its provider id, or by VYNOR's own id
where that is no provider id of the channel. -/
def IsFor (t : Messages) (receipt : DeliveryReceipt) : Prop :=
  receipt.isWatermark = false ∧
    (message.providerMessageId = some receipt.providerMessageId ∨
      receipt.providerMessageId = message.id ∧
        t.find? (.provider message.providerAccountId receipt.providerMessageId) = none)

instance (t : Messages) (receipt : DeliveryReceipt) : Decidable (IsFor message t receipt) :=
  inferInstanceAs (Decidable (_ ∧ (_ ∨ _ ∧ _)))

/-- An action of the calls, where call `i` applies the receipt number `i`. -/
def OfReceipts : Action → Prop
  | .receive i channelId receipt =>
      channelId = message.providerAccountId ∧ receipts[i]? = some receipt
  | .matchInternal i => i < receipts.length
  | .transition i _ => i < receipts.length
  | .throws i => i < receipts.length
  | _ => False

instance : (a : Action) → Decidable (OfReceipts message receipts a)
  | .receive _ _ _ => inferInstanceAs (Decidable (_ ∧ _))
  | .matchInternal _ | .transition _ _ | .throws _ => inferInstanceAs (Decidable (_ < _))
  | .insert _ | .others _ | .send _ _ _ | .prepareFails _ _ | .sendMessage _ | .accepted _ _ _ _
  | .rejected _ _ | .markSent _ _ | .markSentFails _ _ | .recordSuccess _ | .recordFails _ _
  | .sweep _ _ _ | .fail _ _ | .cover _ _ | .poll _ _ _ _ | .fetch _ _ | .deliver _ _
  | .retry _ _ _ | .markRetried _ _ => inferInstanceAs (Decidable False)

/-- The system with the calls of the receipts alone. -/
def receiptMachine : Machine World Action where
  step w a := if OfReceipts message receipts a then step w a else none

variable {message receipts}

theorem receiptMachine_step {w w' : World} {a : Action}
    (h : (receiptMachine message receipts).step w a = some w') :
    OfReceipts message receipts a ∧ step w a = some w' := by
  simp only [receiptMachine] at h
  split at h
  · exact ⟨‹_›, h⟩
  · cases h

/-- The points at which the call of a receipt can stand. -/
inductive Stage (message : Message) (receipt : DeliveryReceipt) : Call → Prop where
  | idle : Stage message receipt .idle
  | matching : receipt.providerMessageId = message.id →
      Stage message receipt (.matching message.providerAccountId receipt)
  | applying {found : Message} : found.id = message.id → found.status.onward = true →
      Stage message receipt (.applying receipt [found] 0)
  | returned (count : Nat) : Stage message receipt (.returned count)
  | threw : Stage message receipt .threw

/-- The row of the message: who sent it, and its keys, are those of `message`. -/
structure SameMessage (message m : Message) : Prop where
  account : m.providerAccountId = message.providerAccountId
  providerId : m.providerMessageId = message.providerMessageId
  direction : m.direction = message.direction

theorem SameMessage.received {m : Message} (h : SameMessage message m) (receipt : DeliveryReceipt)
    (now : Date) : SameMessage message (received receipt now m) := by
  unfold Delivery.received
  cases receipt.status <;> exact ⟨h.account, h.providerId, h.direction⟩

/-- What holds while the receipts of an outbound message are applied. -/
structure Receiving (message : Message) (receipts : List DeliveryReceipt) (w : World) : Prop where
  outbound : message.direction = .outbound
  onward : ∀ r ∈ receipts, r.status.onward = true
  about : ∀ r ∈ receipts, IsFor message w.messages r
  stored : ∃ m, w.messages.find? (.id message.id) = some m ∧ SameMessage message m ∧
    m.status.onward = true ∧
    DELIVERY_STATUS_RANKS m.status ≤ DELIVERY_STATUS_RANKS (highestStatus receipts)
  stage : ∀ i r, receipts[i]? = some r → Stage message r (w.call i)

/-- A transition adds no key. -/
theorem transition_find?_none {t : Messages} {k : MessageKey} (found : Message)
    (receipt : DeliveryReceipt) (now : Date) (h : t.find? k = none) :
    (transition t found receipt now).1.find? k = none := by
  unfold transition
  split
  · rw [Table.find?_updateMany, h, Option.map_none]
  · exact h

/-- The first lookup of a receipt for the message. -/
theorem stage_startReceipt {w : World} {r : DeliveryReceipt} (hw : Receiving message receipts w)
    (hr : r ∈ receipts) : Stage message r (startReceipt w message.providerAccountId r) := by
  obtain ⟨m, hm, hsame, honward, _⟩ := hw.stored
  obtain ⟨hplain, hkey | ⟨hid, hnone⟩⟩ := hw.about r hr
  · have hfind : w.messages.find? (.provider message.providerAccountId r.providerMessageId)
        = some m := by
      rw [Table.find?_eq_some]
      refine ⟨(Table.find?_eq_some.mp hm).1, Message.provider_mem_keys.mpr ⟨hsame.account, ?_⟩⟩
      rw [hsame.providerId, hkey]
    simp only [startReceipt, hplain, hfind]
    exact .applying (Message.id_of_find? hm) honward
  · simp only [startReceipt, hplain, hnone]
    exact .matching hid

/-- The second lookup finds the message. -/
theorem stage_matchInternal {w : World} {r : DeliveryReceipt} (hw : Receiving message receipts w)
    (hid : r.providerMessageId = message.id) :
    Stage message r (matchInternal w message.providerAccountId r) := by
  obtain ⟨m, hm, hsame, honward, _⟩ := hw.stored
  have hcheck : m.providerAccountId = message.providerAccountId ∧ m.direction = .outbound :=
    ⟨hsame.account, hsame.direction.trans hw.outbound⟩
  rw [matchInternal, hid, hm]
  simp only [hcheck, and_self, if_true]
  exact .applying (Message.id_of_find? hm) honward

/-- The stages after one call has moved. -/
theorem stage_setCall {w : World} {i : CallId} {c : Call} {r : DeliveryReceipt}
    (hi : receipts[i]? = some r) (hc : Stage message r c)
    (hs : ∀ j r', receipts[j]? = some r' → Stage message r' (w.call j)) :
    ∀ j r', receipts[j]? = some r' → Stage message r' ((w.setCall i c).call j) := by
  intro j r' hj
  by_cases hji : j = i
  · subst hji
    rw [hi] at hj
    cases hj
    rw [World.setCall_self]
    exact hc
  · rw [World.setCall_other w c hji]
    exact hs j r' hj

/-- A step of the receipts leaves the message as it was, or moves it to the
status of a receipt whose call read the status it still has. -/
theorem receipt_row {w w' : World} {a : Action} {m : Message}
    (h : (receiptMachine message receipts).step w a = some w') (hw : Receiving message receipts w)
    (hm : w.messages.find? (.id message.id) = some m) :
    w'.messages.find? (.id message.id) = some m ∨
      ∃ i now r found, a = .transition i now ∧ receipts[i]? = some r ∧
        w.call i = .applying r [found] 0 ∧ found.status = m.status ∧ Advances m.status r ∧
        w'.messages.find? (.id message.id) = some (received r now m) := by
  obtain ⟨hof, hstep⟩ := receiptMachine_step h
  obtain ⟨m', hm', hrow⟩ := step_row hstep hm
  cases hrow with
  | same => exact Or.inl hm'
  | sent => cases hof
  | failed => cases hof
  | fetched => cases hof
  | retried => cases hof
  | @received i now receipt found _ rest changed hcall hid hread hadv =>
      obtain ⟨r, hr⟩ : ∃ r, receipts[i]? = some r := ⟨_, List.getElem?_eq_getElem hof⟩
      have hstage := hw.stage i r hr
      rw [hcall] at hstage
      cases hstage
      exact Or.inr ⟨i, now, _, found, rfl, hr, hcall, hread, hadv, hm'⟩

/-- Every step of the receipts keeps what holds while they are applied. -/
theorem receiving_step {w w' : World} {a : Action} (hw : Receiving message receipts w)
    (h : (receiptMachine message receipts).step w a = some w') : Receiving message receipts w' := by
  obtain ⟨m, hm, hsame, honward, hle⟩ := hw.stored
  have hrow := receipt_row h hw hm
  obtain ⟨hof, hstep⟩ := receiptMachine_step h
  have hstored : ∃ m', w'.messages.find? (.id message.id) = some m' ∧ SameMessage message m' ∧
      m'.status.onward = true ∧
      DELIVERY_STATUS_RANKS m'.status ≤ DELIVERY_STATUS_RANKS (highestStatus receipts) := by
    rcases hrow with hm' | ⟨i, now, r, found, _, hr, _, _, _, hm'⟩
    · exact ⟨m, hm', hsame, honward, hle⟩
    · have hmem : r ∈ receipts := List.mem_of_getElem? hr
      refine ⟨_, hm', hsame.received r now, ?_, ?_⟩
      · rw [status_received]
        exact hw.onward r hmem
      · rw [status_received]
        exact rank_le_highestStatus hmem
  cases a with
  | receive i channelId receipt =>
      obtain ⟨rfl, hr⟩ := hof
      simp only [step] at hstep
      split at hstep
      · cases hstep
        exact ⟨hw.outbound, hw.onward, hw.about, hstored,
          stage_setCall hr (stage_startReceipt hw (List.mem_of_getElem? hr)) hw.stage⟩
      · cases hstep
  | matchInternal i =>
      obtain ⟨r, hr⟩ : ∃ r, receipts[i]? = some r := ⟨_, List.getElem?_eq_getElem hof⟩
      simp only [step] at hstep
      split at hstep
      next channelId receipt hcall =>
        cases hstep
        have hstage := hw.stage i r hr
        rw [hcall] at hstage
        cases hstage with
        | matching hid =>
            exact ⟨hw.outbound, hw.onward, hw.about, hstored,
              stage_setCall hr (stage_matchInternal hw hid) hw.stage⟩
      · cases hstep
  | transition i now =>
      obtain ⟨r, hr⟩ : ∃ r, receipts[i]? = some r := ⟨_, List.getElem?_eq_getElem hof⟩
      simp only [step] at hstep
      split at hstep
      next receipt found rest changed hcall =>
        cases hstep
        have hstage := hw.stage i r hr
        rw [hcall] at hstage
        cases hstage
        refine ⟨hw.outbound, hw.onward, fun r' hr' => ⟨(hw.about r' hr').1, ?_⟩, hstored,
          stage_setCall hr (.returned _) hw.stage⟩
        exact (hw.about r' hr').2.imp_right fun hown =>
          ⟨hown.1, transition_find?_none found _ now hown.2⟩
      · cases hstep
  | throws i =>
      obtain ⟨r, hr⟩ : ∃ r, receipts[i]? = some r := ⟨_, List.getElem?_eq_getElem hof⟩
      cases hstep
      exact ⟨hw.outbound, hw.onward, hw.about, hstored, stage_setCall hr .threw hw.stage⟩
  | _ => cases hof

end Calls

/-! ## Complete runs -/

/-- A complete run of the calls for some receipts of one sent message. -/
structure ReceiptRun where
  message : Message
  receipts : List DeliveryReceipt
  start : World
  actions : List Action
  final : World
  outbound : message.direction = .outbound
  sent : message.status = .sent
  stored : start.messages.find? (.id message.id) = some message
  onward : ∀ r ∈ receipts, r.status.onward = true
  about : ∀ r ∈ receipts, IsFor message start.messages r
  idle : ∀ i < receipts.length, start.call i = .idle
  run : (receiptMachine message receipts).run start actions = some final
  returned : ∀ i < receipts.length, ∃ count, final.call i = .returned count

namespace ReceiptRun

variable (R : ReceiptRun)

/-- The calls of the run as a machine. -/
abbrev machine : Machine World Action := receiptMachine R.message R.receipts

/-- The status of the message. -/
def status (w : World) : Option DeliveryStatus :=
  (w.messages.find? (.id R.message.id)).map Message.status

/-- The status the receipts are meant to lead to. -/
def highest : DeliveryStatus := highestStatus R.receipts

/-- A receipt with the highest status makes its update in a state where the
message still has the status its call read. -/
def InTime : Prop :=
  ∃ pre i now post w r found, R.actions = pre ++ .transition i now :: post ∧
    R.machine.run R.start pre = some w ∧ R.receipts[i]? = some r ∧ r.status = R.highest ∧
    w.call i = .applying r [found] 0 ∧ R.status w = some found.status

theorem receiving_start : Receiving R.message R.receipts R.start where
  outbound := R.outbound
  onward := R.onward
  about := R.about
  stored := by
    refine ⟨R.message, R.stored, ⟨rfl, rfl, rfl⟩, ?_, ?_⟩
    · rw [R.sent]
      rfl
    · rw [R.sent]
      exact sent_le_highestStatus _
  stage i r hr := by
    obtain ⟨hi, _⟩ := List.getElem?_eq_some_iff.mp hr
    rw [R.idle i hi]
    exact .idle

/-- What holds in every state of the run. -/
theorem receiving {as : List Action} {w : World} (h : R.machine.run R.start as = some w) :
    Receiving R.message R.receipts w :=
  Machine.invariant (I := Receiving R.message R.receipts) (fun _ _ _ hw hs => receiving_step hw hs)
    R.receiving_start h

/-- A step that brings the message to its highest status is an update of a
receipt with that status, made in time. -/
theorem highest_of_step {w w' : World} {a : Action} (hw : Receiving R.message R.receipts w)
    (h : R.machine.step w a = some w') (hbefore : R.status w ≠ some R.highest)
    (hafter : R.status w' = some R.highest) :
    ∃ i now r found, a = .transition i now ∧ R.receipts[i]? = some r ∧ r.status = R.highest ∧
      w.call i = .applying r [found] 0 ∧ R.status w = some found.status := by
  obtain ⟨m, hm, _⟩ := hw.stored
  rcases receipt_row h hw hm with hsame | ⟨i, now, r, found, ha, hr, hcall, hread, _, hm'⟩
  · rw [status, hm] at hbefore
    rw [status, hsame] at hafter
    exact absurd hafter hbefore
  · refine ⟨i, now, r, found, ha, hr, ?_, hcall, ?_⟩
    · rw [status, hm', Option.map_some, status_received] at hafter
      exact Option.some.inj hafter
    · rw [status, hm, Option.map_some, hread]

/-- A receipt with the highest status that makes its update in time leaves the
message in that status. -/
theorem highest_of_inTime {w w' : World} {i : CallId} {now : Date} {r : DeliveryReceipt}
    {found : Message} (hw : Receiving R.message R.receipts w)
    (h : R.machine.step w (.transition i now) = some w') (hr : R.receipts[i]? = some r)
    (htop : r.status = R.highest) (hcall : w.call i = .applying r [found] 0)
    (hread : R.status w = some found.status) : R.status w' = some R.highest := by
  obtain ⟨m, hm, _, honward, hle⟩ := hw.stored
  obtain ⟨_, hstep⟩ := receiptMachine_step h
  have hfound := hw.stage i r hr
  rw [hcall] at hfound
  cases hfound with
  | applying hid _ =>
      rw [status, hm, Option.map_some, Option.some.injEq] at hread
      have hrow := find?_transition found r now hm
      simp only [step, hcall, Option.some.injEq] at hstep
      subst hstep
      show ((transition w.messages found r now).1.find? (.id R.message.id)).map _ = _
      rw [hrow, Option.map_some, Option.some.injEq]
      have hmid := Message.id_of_find? hm
      by_cases heq : m.status = r.status
      · rw [if_neg, heq, htop]
        rintro ⟨hadv, _⟩
        exact hadv.2 (hread.symm.trans heq)
      · rw [if_pos, status_received, htop]
        have hmono : isDeliveryStatusMonotonic m.status r.status = true := by
          rw [monotonic_iff_of_onward honward (hw.onward r (List.mem_of_getElem? hr)), htop]
          exact hle
        rw [← hread]
        exact ⟨⟨hmono, heq⟩, by simp [asRead, hid, hmid, hread]⟩

/-- The highest status is kept. -/
theorem highest_kept {w w' : World} {as : List Action} (hw : Receiving R.message R.receipts w)
    (hr : R.machine.run w as = some w') (h : R.status w = some R.highest) :
    R.status w' = some R.highest := by
  have hboth : Receiving R.message R.receipts w' ∧ R.status w' = some R.highest := by
    refine Machine.invariant (M := R.machine)
      (I := fun w => Receiving R.message R.receipts w ∧ R.status w = some R.highest)
      (fun s a s' hs hstep => ⟨receiving_step hs.1 hstep, ?_⟩) ⟨hw, h⟩ hr
    obtain ⟨m, hm, _, honward, _⟩ := hs.1.stored
    have hm_top : m.status = R.highest := by
      have htop := hs.2
      rw [status, hm, Option.map_some] at htop
      exact Option.some.inj htop
    rcases receipt_row hstep hs.1 hm with hsame | ⟨i, now, r, found, _, hr, _, _, hadv, _⟩
    · rw [status, hsame, Option.map_some, hm_top]
    · -- No status above the highest one is left to advance to.
      have hmem := List.mem_of_getElem? hr
      have hup := (monotonic_iff_of_onward honward (hs.1.onward r hmem)).mp hadv.1
      rw [hm_top] at hup
      have heq := DELIVERY_STATUS_RANKS_injective (Int.le_antisymm (rank_le_highestStatus hmem) hup)
      exact absurd (hm_top.trans heq.symm) hadv.2
  exact hboth.2

/-- After a complete run the message has the highest status exactly when that
is `SENT`, or when some receipt with that status made its update in time. -/
theorem final_eq_highest_iff :
    R.status R.final = some R.highest ↔ R.highest = .sent ∨ R.InTime := by
  have hstart : R.status R.start = some .sent := by
    rw [status, R.stored, Option.map_some, R.sent]
  constructor
  · intro hfinal
    by_cases hsent : R.highest = .sent
    · exact Or.inl hsent
    · right
      have hbefore : ¬ R.status R.start = some R.highest := by
        rw [hstart]
        intro h
        exact hsent (Option.some.inj h).symm
      obtain ⟨pre, a, post, s1, s2, hsplit, hpre, hstep, hn, hy⟩ :=
        R.machine.exists_step_of_run (p := fun w => R.status w = some R.highest) R.run hbefore
          hfinal
      obtain ⟨i, now, r, found, rfl, hr, htop, hcall, hread⟩ :=
        R.highest_of_step (R.receiving hpre) hstep hn hy
      exact ⟨pre, i, now, post, s1, r, found, hsplit, hpre, hr, htop, hcall, hread⟩
  · rintro (hsent | ⟨pre, i, now, post, w, r, found, hsplit, hpre, hr, htop, hcall, hread⟩)
    · exact R.highest_kept R.receiving_start R.run (by rw [hstart, hsent])
    · have hrun := R.run
      rw [hsplit, Machine.run_append_eq_some] at hrun
      obtain ⟨w1, hpre', hrest⟩ := hrun
      have heq : some w1 = some w := hpre'.symm.trans hpre
      cases heq
      obtain ⟨w2, hstep, hpost⟩ := (Machine.run_cons_eq_some _).mp hrest
      have hw := R.receiving hpre
      exact R.highest_kept (receiving_step hw hstep) hpost
        (R.highest_of_inTime hw hstep hr htop hcall hread)

end ReceiptRun

/-! ## A receipt that is overtaken -/

/-- A reply the provider has accepted. -/
def sentReply : Message :=
  { exampleReply with status := .sent, providerMessageId := some "p1", sentAt := some 1 }

/-- The receipts of the run below: the reply was delivered, and read. -/
def exampleReceipts : List DeliveryReceipt :=
  [⟨"p1", "visitor", .delivered, 2, none, none, none⟩, ⟨"p1", "visitor", .read, 3, none, none, none⟩]

def sentWorld : World :=
  { World.init with messages := ⟨[sentReply], List.pairwise_singleton _ _⟩ }

/-- Both receipts read the reply as `SENT`, and the delivery is written
first. -/
def overtakenActions : List Action :=
  [.receive 0 "channel" ⟨"p1", "visitor", .delivered, 2, none, none, none⟩,
    .receive 1 "channel" ⟨"p1", "visitor", .read, 3, none, none, none⟩,
    .transition 0 4, .transition 1 5]

theorem overtaken_isSome :
    ((receiptMachine sentReply exampleReceipts).run sentWorld overtakenActions).isSome = true := by
  decide

/-- The run of these actions. -/
def overtaken : ReceiptRun where
  message := sentReply
  receipts := exampleReceipts
  start := sentWorld
  actions := overtakenActions
  final := ((receiptMachine sentReply exampleReceipts).run sentWorld overtakenActions).get
    overtaken_isSome
  outbound := rfl
  sent := rfl
  stored := by decide
  onward := by decide
  about := by decide
  idle _ _ := rfl
  run := (Option.some_get _).symm
  returned i hi := by
    match i with
    | 0 => exact ⟨1, by decide⟩
    | 1 => exact ⟨0, by decide⟩
    | i + 2 => exact absurd hi (by simp [exampleReceipts])

/-- Not every complete run ends in the highest status: here both calls return
and the reply stays `DELIVERED`. -/
theorem not_final_highest : ¬ ∀ R : ReceiptRun, R.status R.final = some R.highest := by
  intro h
  have hread := h overtaken
  have hdelivered : overtaken.status overtaken.final = some .delivered := by decide
  rw [hdelivered] at hread
  cases hread

end Vynor.Delivery
