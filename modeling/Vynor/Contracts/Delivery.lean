import Vynor.Basic

/-!
# Delivery statuses and receipts

The delivery statuses of a message, their ranks, and the rule that says which
status may follow which.  The rule lets a message move up the ranks, fail from
anywhere below `READ`, and leave `FAILED` only for `PENDING`.
-/

namespace Vynor

/-- `DELIVERY_STATUSES`. -/
inductive DeliveryStatus where
  | pending
  | sent
  | delivered
  | read
  | failed
deriving DecidableEq, Repr

/-- `DELIVERY_STATUS_RANKS`. -/
def DELIVERY_STATUS_RANKS : DeliveryStatus → Int
  | .pending => 0
  | .sent => 1
  | .delivered => 2
  | .read => 3
  | .failed => -1

/-- `isDeliveryStatusMonotonic`. -/
def isDeliveryStatusMonotonic (currentStatus nextStatus : DeliveryStatus) : Bool :=
  if currentStatus = nextStatus then true
  else if currentStatus = .read then false
  else if nextStatus = .failed then currentStatus ≠ .failed
  else if currentStatus = .failed then nextStatus = .pending
  else DELIVERY_STATUS_RANKS currentStatus < DELIVERY_STATUS_RANKS nextStatus

@[simp] theorem isDeliveryStatusMonotonic_self (s : DeliveryStatus) :
    isDeliveryStatusMonotonic s s = true := if_pos rfl

/-- A status that may follow another one and is `PENDING` follows `FAILED`, or
is the one that was there. -/
theorem eq_of_monotonic_pending {s : DeliveryStatus}
    (h : isDeliveryStatusMonotonic s .pending = true) : s = .pending ∨ s = .failed := by
  cases s with
  | pending => exact Or.inl rfl
  | failed => exact Or.inr rfl
  | sent => cases h
  | delivered => cases h
  | read => cases h

theorem DELIVERY_STATUS_RANKS_injective : Function.Injective DELIVERY_STATUS_RANKS := by
  intro a b h
  cases a with
  | pending =>
      cases b with
      | pending => rfl
      | _ => cases h
  | sent =>
      cases b with
      | sent => rfl
      | _ => cases h
  | delivered =>
      cases b with
      | delivered => rfl
      | _ => cases h
  | read =>
      cases b with
      | read => rfl
      | _ => cases h
  | failed =>
      cases b with
      | failed => rfl
      | _ => cases h

/-- The statuses a message moves up through once the provider has it. -/
def DeliveryStatus.onward : DeliveryStatus → Bool
  | .sent => true
  | .delivered => true
  | .read => true
  | _ => false

/-- Among the onward statuses the rule is the order of the ranks. -/
theorem monotonic_iff_of_onward {s t : DeliveryStatus} (hs : s.onward = true)
    (ht : t.onward = true) :
    isDeliveryStatusMonotonic s t = true ↔ DELIVERY_STATUS_RANKS s ≤ DELIVERY_STATUS_RANKS t := by
  revert hs ht
  cases s <;> cases t <;> decide

/-- The one of two statuses with the higher rank. -/
def DeliveryStatus.higher (s t : DeliveryStatus) : DeliveryStatus :=
  if DELIVERY_STATUS_RANKS s < DELIVERY_STATUS_RANKS t then t else s

theorem DeliveryStatus.rank_le_higher (s t : DeliveryStatus) :
    DELIVERY_STATUS_RANKS s ≤ DELIVERY_STATUS_RANKS (s.higher t) ∧
      DELIVERY_STATUS_RANKS t ≤ DELIVERY_STATUS_RANKS (s.higher t) := by
  unfold DeliveryStatus.higher
  split <;> omega

/-- `NormalizedDeliveryReceipt`, with the members of its `error` and the
`metadata.watermark` the application of a receipt reads. -/
structure DeliveryReceipt where
  providerMessageId : String
  recipientIdentifier : String
  status : DeliveryStatus
  timestamp : Date
  errorCode : Option String := none
  errorMessage : Option String := none
  watermark : Option Date := none
deriving DecidableEq, Repr

/-- The prefix that marks a receipt for everything sent up to a moment. -/
def WATERMARK_PREFIX : String := "watermark:"

/-- `receipt.providerMessageId.startsWith('watermark:')`. -/
def DeliveryReceipt.isWatermark (receipt : DeliveryReceipt) : Bool :=
  receipt.providerMessageId.startsWith WATERMARK_PREFIX

/-! ## The highest status of some receipts -/

/-- The highest-ranked of `SENT` and the statuses of some receipts. -/
def highestStatus : List DeliveryReceipt → DeliveryStatus
  | [] => .sent
  | receipt :: receipts => (highestStatus receipts).higher receipt.status

theorem rank_le_highestStatus {receipts : List DeliveryReceipt} {receipt : DeliveryReceipt}
    (h : receipt ∈ receipts) :
    DELIVERY_STATUS_RANKS receipt.status ≤ DELIVERY_STATUS_RANKS (highestStatus receipts) := by
  induction receipts with
  | nil => cases h
  | cons r receipts ih =>
      have hup := DeliveryStatus.rank_le_higher (highestStatus receipts) r.status
      rcases List.mem_cons.mp h with rfl | h
      · exact hup.2
      · exact Int.le_trans (ih h) hup.1

theorem sent_le_highestStatus (receipts : List DeliveryReceipt) :
    DELIVERY_STATUS_RANKS .sent ≤ DELIVERY_STATUS_RANKS (highestStatus receipts) := by
  induction receipts with
  | nil => exact Int.le_refl _
  | cons r receipts ih =>
      exact Int.le_trans ih (DeliveryStatus.rank_le_higher _ _).1

end Vynor
