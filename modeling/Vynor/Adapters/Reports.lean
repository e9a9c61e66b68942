import Vynor.Adapters.Normalize

/-!
# Reports

What the results of a payload report: messages by their ids, and receipts by the
id and the status.  It depends on the payload alone (`told`), and neither on the
channel nor on the time, nor on a profile.
-/

namespace Vynor.Adapters

open Lib (Json)

/-- What a result reports: a message, or a status of one. -/
abbrev Report := String × Option (Looked DeliveryStatus)

/-- The id of a message, and the id and status of a receipt. -/
def reportOf : NormalizedInboundResult → Option Report
  | .message data => some (data.providerMessageId, none)
  | .deliveryReceipt data => some (data.providerMessageId, some data.status)
  | .ignored _ => none

def reports (results : List NormalizedInboundResult) : List Report := results.filterMap reportOf

namespace WhatsApp

/-- What the results of a payload report. -/
def told (payload : Record) : List Report :=
  if isTruthy (prop payload "status") then
    let status := asRecord (prop payload "status")
    ((lookup STATUS_MAP ((asString (prop status "status")).getD "")).map fun mapped =>
      ((asString (prop status "id")).getD "", some mapped)).toList
  else
    let message := asRecord (prop payload "message")
    match truthy (asString (prop message "from")), truthy (asString (prop message "id")) with
    | some _, some id => [(id, none)]
    | _, _ => []

section Reports

variable {payload : Record} {context : NormalizeContext} {account : AdapterAccount} {now : Date}

theorem reports_eq_told {results : List NormalizedInboundResult}
    (h : normalizeInbound payload context account now = .ok results) :
    reports results = told payload := by
  unfold normalizeInbound at h
  unfold told
  by_cases hstatus : isTruthy (prop payload "status") = true
  · rw [if_pos hstatus] at h ⊢
    simp only [normalizeStatus] at h
    split at h
    · next hnone =>
        obtain ⟨text, _, rfl⟩ := exists_of_map_ok h
        simp only [hnone]
        rfl
    · next mapped hmapped =>
        obtain ⟨timestamp, _, rfl⟩ := exists_of_map_ok h
        simp only [hmapped]
        rfl
  · rw [if_neg hstatus] at h ⊢
    simp only [normalizeMessage] at h ⊢
    cases hsender : truthy (asString (prop (asRecord (prop payload "message")) "from")) with
    | none =>
        rw [hsender] at h
        cases h
        rfl
    | some sender =>
        cases hid : truthy (asString (prop (asRecord (prop payload "message")) "id")) with
        | none =>
            rw [hsender, hid] at h
            cases h
            rfl
        | some id =>
            rw [hsender, hid] at h
            obtain ⟨timestamp, _, rfl⟩ := exists_of_map_ok h
            rfl

end Reports

end WhatsApp

namespace Messaging

/-- The ids a receipt lists. -/
def mids (receipt : Record) : List String :=
  (asArray (prop receipt "mids")).filterMap fun m => truthy (asString (some m))

/-- The ids a receipt is about. -/
def receiptIds (receipt : Record) : List String :=
  match mids receipt ++ (truthy (asString (prop receipt "mid"))).toList,
    truthy (asString (prop receipt "watermark")) with
  | [], some watermark => [WATERMARK_PREFIX ++ watermark]
  | ids, _ => ids

/-- What the results of an event report. -/
def told (event : Record) : List Report :=
  match truthy (senderId event) with
  | none => []
  | some sender =>
      if isReceipt event then
        let receipt := asRecord (orNullish (prop event "delivery") (prop event "read"))
        let status := if isTruthy (prop event "read") then DeliveryStatus.read else .delivered
        (receiptIds receipt).map fun id => (id, some (.own status))
      else (messageId event sender).toList.map fun id => (id, none)

section Reports

variable {event : Record} {context : NormalizeContext} {account : AdapterAccount}
  {options : Options} {now : Date}

theorem reports_receipts {sender : String} {timestamp : Date} {results : List NormalizedInboundResult}
    (h : receipts event context now sender timestamp = .ok results) :
    reports results =
      (receiptIds (asRecord (orNullish (prop event "delivery") (prop event "read")))).map fun id =>
        (id, some (.own (if isTruthy (prop event "read") then DeliveryStatus.read else .delivered))) := by
  simp only [receipts] at h
  simp only [receiptIds, mids]
  generalize (if isTruthy (prop event "read") then DeliveryStatus.read else .delivered) = status
    at h ⊢
  generalize asRecord (orNullish (prop event "delivery") (prop event "read")) = receipt at h ⊢
  have hreceipts (ids : List String) :
      reports (ids.map fun providerMessageId => .deliveryReceipt
        { context := context
          providerMessageId := providerMessageId
          recipientIdentifier := sender
          status := .own status
          timestamp := .iso timestamp }) = ids.map fun id => (id, some (.own status)) := by
    simp [reports, List.filterMap_map, Function.comp_def, reportOf]
  cases hids : (asArray (prop receipt "mids")).filterMap (fun m => truthy (asString (some m))) ++
      (truthy (asString (prop receipt "mid"))).toList with
  | cons id ids =>
      rw [hids] at h
      cases h
      exact hreceipts (id :: ids)
  | nil =>
      cases hwatermark : truthy (asString (prop receipt "watermark")) with
      | none =>
          rw [hids, hwatermark] at h
          cases h
          rfl
      | some watermark =>
          rw [hids, hwatermark] at h
          obtain ⟨moment, _, rfl⟩ := exists_of_map_ok h
          rfl

theorem reports_eq_told {results : List NormalizedInboundResult}
    (h : normalizeMessagingEvent event context account options now = .ok results) :
    reports results = told event := by
  obtain ⟨hsender, rfl⟩ | ⟨sender, timestamp, hsender, ⟨hreceipt, h⟩ | ⟨hreceipt, s, hsaid, rfl⟩⟩ :=
    cases_of_normalizeMessagingEvent h
  · rw [told, hsender]
    rfl
  · simp only [told, hsender, hreceipt, if_true]
    exact reports_receipts h
  · simp only [told, hsender, hreceipt, Bool.false_eq_true, if_false,
      ← providerMessageId_of_said hsaid]
    cases s <;> rfl

end Reports

end Messaging

namespace Telegram

/-- What the results of an update report. -/
def told (payload : Record) : List Report :=
  if isTruthy (prop payload "callback_query") then
    let query := asRecord (prop payload "callback_query")
    let chat := asRecord (prop (asRecord (prop query "message")) "chat")
    match truthy ((asString (prop chat "id")).or (asString (prop (asRecord (prop query "from")) "id"))),
      truthy (asString (prop query "id")) with
    | some _, some queryId => [("callback:" ++ queryId, none)]
    | _, _ => []
  else
    let message := asRecord (prop payload "message")
    let chat := asRecord (prop message "chat")
    match truthy (asString (prop chat "id")), truthy (asString (prop message "message_id")) with
    | some chatId, some messageId =>
        if asString (prop chat "type") = some "private" then [(chatId ++ ":" ++ messageId, none)]
        else []
    | _, _ => []

section Reports

variable {payload : Record} {context : NormalizeContext} {account : AdapterAccount} {now : Date}

theorem reports_eq_told {results : List NormalizedInboundResult}
    (h : normalizeInbound payload context account now = .ok results) :
    reports results = told payload := by
  unfold normalizeInbound at h
  unfold told
  split at h
  · next hcallback =>
      cases h
      rw [if_pos hcallback]
      unfold normalizeCallback
      generalize asRecord (prop payload "callback_query") = query
      dsimp only
      cases truthy ((asString (prop (asRecord (prop (asRecord (prop query "message")) "chat")) "id")).or
          (asString (prop (asRecord (prop query "from")) "id"))) <;>
        cases truthy (asString (prop query "id")) <;> rfl
  · next hcallback =>
      rw [if_neg hcallback]
      simp only [normalizeMessage] at h ⊢
      generalize asRecord (prop payload "message") = message at h ⊢
      cases hchat : truthy (asString (prop (asRecord (prop message "chat")) "id")) with
      | none =>
          rw [hchat] at h
          cases h
          rfl
      | some chatId =>
          cases hmessage : truthy (asString (prop message "message_id")) with
          | none =>
              rw [hchat, hmessage] at h
              cases h
              rfl
          | some messageId =>
              rw [hchat, hmessage] at h
              by_cases hprivate : asString (prop (asRecord (prop message "chat")) "type") = some "private"
              · simp only [if_pos hprivate] at h ⊢
                obtain ⟨timestamp, _, rfl⟩ := exists_of_map_ok h
                rfl
              · simp only [if_neg hprivate] at h ⊢
                cases h
                rfl

end Reports

end Telegram

namespace Line

/-- What the results of an event report. -/
def told (payload : Record) : List Report :=
  let source := asRecord (prop payload "source")
  let type := asString (prop payload "type")
  if asString (prop source "type") = some "user" ∧ truthy (asString (prop source "userId")) ≠ none then
    if type = some "message" then
      (truthy (asString (prop (asRecord (prop payload "message")) "id"))).toList.map fun id => (id, none)
    else if type = some "postback" then
      [("postback:" ++ shown (asString (prop payload "webhookEventId")), none)]
    else []
  else []

section Reports

variable {payload : Record} {context : NormalizeContext} {account : AdapterAccount}
  {profile : Option ContactProfile} {now : Date}

theorem reports_eq_told {results : List NormalizedInboundResult}
    (h : normalizeInbound payload context account profile now = .ok results) :
    reports results = told payload := by
  simp only [normalizeInbound] at h
  simp only [told]
  split at h
  · next huser =>
      split at h
      · next hnone =>
          cases h
          simp [hnone, reports, reportOf]
      · next userId huserId =>
          rw [if_pos ⟨huser, by simp [huserId]⟩]
          by_cases hmessage : asString (prop payload "type") = some "message"
          · rw [if_pos hmessage]
            simp only [said, if_pos hmessage] at h
            cases hid : truthy (asString (prop (asRecord (prop payload "message")) "id")) with
            | none =>
                rw [hid] at h
                cases h
                rfl
            | some id =>
                rw [hid] at h
                obtain ⟨timestamp, _, rfl⟩ := exists_of_map_ok h
                rfl
          · rw [if_neg hmessage]
            simp only [said, if_neg hmessage] at h
            by_cases hpostback : asString (prop payload "type") = some "postback"
            · rw [if_pos hpostback] at h ⊢
              obtain ⟨timestamp, _, rfl⟩ := exists_of_map_ok h
              rfl
            · rw [if_neg hpostback] at h ⊢
              cases h
              rfl
  · next huser =>
      cases h
      rw [if_neg fun hand => huser hand.1]
      rfl

end Reports

end Line

namespace CustomApi

/-- What the results of an item report. -/
def told (payload : Record) : List Report :=
  match truthy (asString (prop payload "messageId")) with
  | none => []
  | some messageId =>
      if asString (prop payload "type") = some "status" then
        ((lookup STATUS_MAP ((asString (prop payload "status")).getD "")).map fun status =>
          (messageId, some status)).toList
      else
        match truthy (asString (prop (asRecord (prop payload "contact")) "id")),
          truthy (asString (prop payload "text")) with
        | some _, some _ => [(messageId, none)]
        | _, _ => []

section Reports

variable {payload : Record} {context : NormalizeContext} {account : AdapterAccount} {now : Date}

theorem reports_eq_told : reports (normalizeInbound payload context account now) = told payload := by
  unfold normalizeInbound told
  cases truthy (asString (prop payload "messageId")) with
  | none => rfl
  | some messageId =>
      by_cases hstatus : asString (prop payload "type") = some "status"
      · simp only [hstatus, if_true]
        cases lookup STATUS_MAP ((asString (prop payload "status")).getD "") <;> rfl
      · simp only [if_neg hstatus]
        cases truthy (asString (prop (asRecord (prop payload "contact")) "id")) <;>
          cases truthy (asString (prop payload "text")) <;> rfl

end Reports

end CustomApi

namespace Webchat

/-- What the results of a payload report. -/
def told (payload : Record) : List Report :=
  match truthy (asString (prop payload "visitorId")),
    truthy (asString (prop payload "clientMessageId")), truthy (asString (prop payload "text")) with
  | some visitorId, some clientMessageId, some _ => [(visitorId ++ ":" ++ clientMessageId, none)]
  | _, _, _ => []

section Reports

variable {toUpperCase : String → String} {payload : Record} {context : NormalizeContext}
  {account : AdapterAccount} {now : Date}

theorem reports_eq_told :
    reports (normalizeInbound toUpperCase payload context account now) = told payload := by
  unfold normalizeInbound told
  cases truthy (asString (prop payload "visitorId")) <;>
    cases truthy (asString (prop payload "clientMessageId")) <;>
    cases truthy (asString (prop payload "text")) <;> rfl

end Reports

end Webchat

end Vynor.Adapters
