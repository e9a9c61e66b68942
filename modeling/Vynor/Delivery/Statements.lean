import Vynor.Schema

/-!
# Statements on the status of a message

The five writes that change `messages.status`: `markSent` and `fail` of the
outbound dispatcher, `transition` of a receipt, the delivery update of the web
chat poll, and the update of `retryMessage`.  Four of them repeat the status
they rely on in their condition.  The last one selects its row by id alone.
-/

namespace Vynor.Delivery

open Lib (Table)

/-- `OUTBOUND` and not private: the messages whose status is a delivery
status. -/
def Reply (m : Message) : Prop := m.direction = .outbound ∧ m.isPrivate = false

instance (m : Message) : Decidable (Reply m) := inferInstanceAs (Decidable (_ ∧ _))

/-! ## The writes to one row -/

/-- The `SET` of `markSent`. -/
def markedSent (providerMessageId : Option String) (sentAt now : Date) (m : Message) : Message :=
  { m with
    status := .sent
    providerMessageId := providerMessageId
    sentAt := some sentAt
    errorCode := none
    errorMessage := none
    updatedAt := now }

/-- The `SET` of `fail`. -/
def failed (code text : String) (now : Date) (m : Message) : Message :=
  { m with
    status := .failed
    errorCode := some ((codeUnits code).take 100)
    errorMessage := some text
    failedAt := some now
    updatedAt := now }

/-- The `SET` of `transition`.  Only the moment of the new status is set. -/
def received (receipt : DeliveryReceipt) (now : Date) (m : Message) : Message :=
  let m := { m with status := receipt.status, updatedAt := now }
  let at_ := receipt.timestamp
  match receipt.status with
  | .pending => m
  | .sent => { m with sentAt := some at_ }
  | .delivered => { m with deliveredAt := some at_ }
  | .read => { m with readAt := some at_ }
  | .failed =>
      { m with
        failedAt := some at_
        errorCode := some (codeUnits (receipt.errorCode.getD "DELIVERY_FAILED"))
        errorMessage :=
          some (receipt.errorMessage.getD "The provider could not deliver this message.") }

/-- The `SET` of the web chat poll. -/
def fetched (now : Date) (m : Message) : Message :=
  { m with status := .delivered, deliveredAt := some now, updatedAt := now }

/-- The `SET` of `retryMessage`. -/
def retried (now : Date) (m : Message) : Message :=
  { m with
    status := .pending
    errorCode := none
    errorMessage := none
    failedAt := none
    updatedAt := now }

section Writes

variable (m : Message) (receipt : DeliveryReceipt) (now : Date) (code text : String)

theorem keys_failed : (failed code text now m).keys = m.keys := rfl

theorem keys_received : (received receipt now m).keys = m.keys := by
  unfold received
  cases receipt.status <;> rfl

theorem keys_fetched : (fetched now m).keys = m.keys := rfl

theorem keys_retried : (retried now m).keys = m.keys := rfl

@[simp] theorem status_received : (received receipt now m).status = receipt.status := by
  unfold received
  cases h : receipt.status <;> simp

end Writes

/-! ## The statements -/

/-- The update of `markSent`.  It fails where the provider id is taken. -/
def markSent (t : Messages) (messageId : Id) (providerMessageId : Option String)
    (sentAt now : Date) : Option Messages :=
  t.updateMany? (fun m => m.id = messageId && m.status = .pending)
    (markedSent providerMessageId sentAt now)

/-- The update of `fail`. -/
def fail (t : Messages) (messageId : Id) (code text : String) (now : Date) : Messages :=
  t.updateMany (fun m => m.id = messageId && m.status = .pending) (failed code text now)
    fun m => keys_failed m now code text

/-- A receipt moves a message that was read in this status. -/
def Advances (status : DeliveryStatus) (receipt : DeliveryReceipt) : Prop :=
  isDeliveryStatusMonotonic status receipt.status = true ∧ status ≠ receipt.status

instance (status : DeliveryStatus) (receipt : DeliveryReceipt) :
    Decidable (Advances status receipt) := inferInstanceAs (Decidable (_ ∧ _))

/-- The row is the message as it was read, its status unchanged. -/
def asRead (message m : Message) : Bool := m.id = message.id && m.status = message.status

/-- `transition`: the table after it and the number of rows it changed. -/
def transition (t : Messages) (message : Message) (receipt : DeliveryReceipt) (now : Date) :
    Messages × Nat :=
  if Advances message.status receipt then
    (t.updateMany (asRead message) (received receipt now) fun m => keys_received m receipt now,
      t.count (asRead message))
  else (t, 0)

/-- The update of the web chat poll. -/
def markFetched (t : Messages) (delivered : List Id) (now : Date) : Messages :=
  t.updateMany (fun m => m.id ∈ delivered && m.status = .sent) (fetched now)
    fun m => keys_fetched m now

/-- The update of `retryMessage`.  Its condition is the id alone. -/
def markRetried (t : Messages) (messageId : Id) (now : Date) : Messages :=
  t.updateMany (fun m => m.id = messageId) (retried now) fun m => keys_retried m now

/-! ## What a statement does to one row -/

section Rows

variable {t : Messages} {id : Id} {m : Message}

theorem find?_markSent {t' : Messages} {messageId : Id} {providerMessageId : Option String}
    {sentAt now : Date} (h : markSent t messageId providerMessageId sentAt now = some t')
    (hm : t.find? (.id id) = some m) :
    t'.find? (.id id) = some (if m.id = messageId && m.status = .pending then
      markedSent providerMessageId sentAt now m else m) :=
  Table.find?_of_updateMany? h (fun r => by simp [markedSent]) hm

theorem find?_fail (messageId : Id) (code text : String) (now : Date)
    (hm : t.find? (.id id) = some m) :
    (fail t messageId code text now).find? (.id id)
      = some (if m.id = messageId && m.status = .pending then failed code text now m else m) := by
  rw [fail, Table.find?_updateMany_of_some hm]

/-- A transition moves the row it read, if the status is still the one read. -/
theorem find?_transition {k : MessageKey} (message : Message) (receipt : DeliveryReceipt)
    (now : Date) (hm : t.find? k = some m) :
    (transition t message receipt now).1.find? k
      = some (if Advances message.status receipt ∧ asRead message m = true then
          received receipt now m else m) := by
  unfold transition
  by_cases h : Advances message.status receipt
  · rw [if_pos h, Table.find?_updateMany_of_some hm]
    simp [h]
  · rw [if_neg h, hm]
    simp [h]

theorem find?_markFetched (delivered : List Id) (now : Date) (hm : t.find? (.id id) = some m) :
    (markFetched t delivered now).find? (.id id)
      = some (if m.id ∈ delivered && m.status = .sent then fetched now m else m) := by
  rw [markFetched, Table.find?_updateMany_of_some hm]

theorem find?_markRetried (messageId : Id) (now : Date) (hm : t.find? (.id id) = some m) :
    (markRetried t messageId now).find? (.id id)
      = some (if decide (m.id = messageId) then retried now m else m) := by
  rw [markRetried, Table.find?_updateMany_of_some hm]

end Rows

end Vynor.Delivery
