import Vynor.Delivery.Errors
import Vynor.Delivery.Statements
import Vynor.Lib.Machine

/-!
# The system around a message's status

Send attempts, the sweep for stuck replies, receipts, web chat polls and
retries run against one table.  Each call has its own number and is cut at its
awaits, so between a read of a call and its later write any other call may
move.  `Call` names the points where a call can stand:

* a send attempt is `prepared` once the reply was read as `PENDING`, then
  `calling` the adapter, then `marking` (and `remarking` without the provider
  id, where that is taken), then `recording` the channel's health;
* `failing` awaits the transaction of `fail`, from a send attempt or, with more
  messages to come, from the sweep;
* a receipt is `matching` after it found no message under the provider id,
  `covering` once a watermark found its recipient, and `applying` with the
  messages it read and has yet to move;
* a web chat poll is `fetching` its rows and then `delivering`;
* a retry is `retrying` once it read the reply as `FAILED`.

A statement runs, or throws and changes nothing.  What the adapter answers,
which error is thrown, and what the clock shows is part of the action.  Other
code may insert messages and change channels, contacts and conversations at any
time.

`Turn` says once what a step can do, and `step_row` what it can do to a message.
-/

namespace Vynor.Delivery

open Lib (Table Machine)

/-- What the calls look up outside `messages`. -/
structure Directory where
  account : Id → Option ProviderAccount
  /-- `contact_identities` by channel and external id. -/
  identity : Id → String → Option Id
  /-- `conversations.contact_identity_id`. -/
  contactIdentityId : Id → Option Id

/-- A send attempt past its checks: the message and channel as read. -/
structure Attempt where
  message : Message
  channel : ProviderAccount
  finalAttempt : Bool
deriving DecidableEq, Repr

/-- Where a call stands. -/
inductive Call where
  | idle
  | prepared (attempt : Attempt)
  | calling (attempt : Attempt)
  | marking (attempt : Attempt) (providerMessageId : Option String) (sentAt : Date)
  | remarking (attempt : Attempt) (sentAt : Date)
  | recording (attempt : Attempt)
  | failing (messageId : Id) (code text : String) (rest : List Id)
  | matching (channelId : Id) (receipt : DeliveryReceipt)
  | covering (channelId : Id) (receipt : DeliveryReceipt) (identityId : Id)
  | applying (receipt : DeliveryReceipt) (messages : List Message) (changed : Nat)
  | fetching (identityId : Id) (since : Option Date)
  | delivering (delivered : List Id)
  | retrying (messageId : Id)
  | returned (count : Nat)
  | threw
deriving DecidableEq, Repr

abbrev CallId := Nat

structure World where
  messages : Messages
  directory : Directory
  call : CallId → Call

/-- The same world with one call at another point. -/
def World.setCall (w : World) (i : CallId) (c : Call) : World :=
  { w with call := Function.update w.call i c }

/-! ## Send attempts -/

/-- The checks of `send` after its read. -/
def startSend (message : Message) (channel : ProviderAccount) (finalAttempt : Bool) : Call :=
  if message.direction ≠ .outbound ∨ message.isPrivate = true ∨ message.status ≠ .pending then
    .returned 0
  else if channel.deletedAt.isSome then
    .failing message.id "CHANNEL_DELETED"
      "The channel was deleted before this reply could be sent." []
  else if message.content.isOutbound then .prepared ⟨message, channel, finalAttempt⟩
  else
    .failing message.id "INVALID_CONTENT" "This reply has content the channel cannot send." []

/-- The `catch` of `send`. -/
def catchSend (attempt : Attempt) (error : Thrown) : Call :=
  let providerError := toChannelProviderError attempt.channel.provider error
  if providerError.retryable ∧ attempt.finalAttempt = false then .threw
  else .failing attempt.message.id providerError.code (describeSendFailure providerError) []

/-- The point a call reaches when the transaction of `fail` is done. -/
def afterFail (code text : String) : List Id → Call
  | [] => .returned 0
  | messageId :: rest => .failing messageId code text rest

/-! ## The sweep, the watermark and the poll -/

/-- `STUCK_PENDING_MS`. -/
def STUCK_PENDING_MS : Date := 15 * 60000

/-- The `WHERE` of `failStuckMessages`. -/
def stuck (now : Date) (m : Message) : Bool :=
  Reply m && m.status = .pending && m.updatedAt < now - STUCK_PENDING_MS

def STUCK_TEXT : String := "This reply was not sent within 15 minutes. Retry it."

/-- The point the sweep reaches with the messages it found. -/
def startSweep (messages : List Message) : Call :=
  afterFail "SEND_TIMEOUT" STUCK_TEXT (messages.map Message.id)

/-- Statuses a watermark moves on. -/
def advanceable (receipt : DeliveryReceipt) : List DeliveryStatus :=
  if receipt.status = .read then [.sent, .delivered] else [.sent]

/-- The `WHERE` of the watermark's candidates. -/
def covered (d : Directory) (channelId : Id) (receipt : DeliveryReceipt) (identityId : Id)
    (m : Message) : Bool :=
  m.providerAccountId = channelId && Reply m && m.status ∈ advanceable receipt &&
    (match m.sentAt with
      | some sentAt => sentAt ≤ receipt.watermark.getD receipt.timestamp
      | none => false) &&
    d.contactIdentityId m.conversationId = some identityId

/-- The first lookup of `applyReceipt`. -/
def startReceipt (w : World) (channelId : Id) (receipt : DeliveryReceipt) : Call :=
  if receipt.isWatermark then
    match w.directory.identity channelId receipt.recipientIdentifier with
    | some identityId => .covering channelId receipt identityId
    | none => .returned 0
  else
    match w.messages.find? (.provider channelId receipt.providerMessageId) with
    | some message => .applying receipt [message] 0
    | none => .matching channelId receipt

/-- The lookup by VYNOR's own id. -/
def matchInternal (w : World) (channelId : Id) (receipt : DeliveryReceipt) : Call :=
  match w.messages.find? (.id receipt.providerMessageId) with
  | some message =>
      if message.providerAccountId = channelId ∧ message.direction = .outbound then
        .applying receipt [message] 0
      else .threw
  | none => .threw

/-- The point a receipt reaches with messages left to move. -/
def afterTransition (receipt : DeliveryReceipt) (rest : List Message) (changed : Nat) : Call :=
  if rest = [] then .returned changed else .applying receipt rest changed

/-- The `WHERE` of a web chat poll. -/
def visible (d : Directory) (identityId : Id) (since : Option Date) (m : Message) : Bool :=
  d.contactIdentityId m.conversationId = some identityId && m.isPrivate = false &&
    match since with
    | some since => since < m.createdAt
    | none => true

/-- The rows a poll marks as delivered. -/
def deliveredIds (rows : List Message) : List Id :=
  (rows.filter fun m => m.direction = .outbound && m.status = .sent).map Message.id

/-- The point a poll reaches with its rows. -/
def startDelivering (rows : List Message) : Call :=
  if deliveredIds rows = [] then .returned rows.length else .delivering (deliveredIds rows)

/-- The checks of `retryMessage` after its read. -/
def startRetry (message : Message) (channel : ProviderAccount) (workspaceId : Id) : Call :=
  if message.workspaceId ≠ workspaceId then .threw
  else if message.direction ≠ .outbound ∨ message.isPrivate = true ∨ message.status ≠ .failed then
    .threw
  else if channel.deletedAt.isSome ∨ channel.status = .disconnected then .threw
  else .retrying message.id

/-! ## Steps -/

/-- What can happen next, and what the environment answers. -/
inductive Action where
  | insert (message : Message)
  | others (directory : Directory)
  | send (i : CallId) (messageId : Id) (finalAttempt : Bool)
  | prepareFails (i : CallId) (error : Thrown)
  | sendMessage (i : CallId)
  | accepted (i : CallId) (providerMessageId : Option String) (providerTimestamp : Option Date)
      (now : Date)
  | rejected (i : CallId) (error : Thrown)
  | markSent (i : CallId) (now : Date)
  | markSentFails (i : CallId) (error : Thrown)
  | recordSuccess (i : CallId)
  | recordFails (i : CallId) (error : Thrown)
  | sweep (i : CallId) (now : Date) (messages : List Message)
  | fail (i : CallId) (now : Date)
  | receive (i : CallId) (channelId : Id) (receipt : DeliveryReceipt)
  | matchInternal (i : CallId)
  | cover (i : CallId) (messages : List Message)
  | transition (i : CallId) (now : Date)
  | poll (i : CallId) (channelId : Id) (visitorId : String) (since : Option Date)
  | fetch (i : CallId) (rows : List Message)
  | deliver (i : CallId) (now : Date)
  | retry (i : CallId) (workspaceId messageId : Id)
  | markRetried (i : CallId) (now : Date)
  | throws (i : CallId)

/-- The action is the update of `retryMessage`. -/
def Action.isRetry : Action → Bool
  | .markRetried _ _ => true
  | _ => false

/-- The transaction of `markSent`: with the provider id first, and without it
where that is taken. -/
def stepMarkSent (w : World) (i : CallId) (now : Date) : Option World :=
  match w.call i with
  | .marking attempt providerMessageId sentAt =>
      match markSent w.messages attempt.message.id providerMessageId sentAt now with
      | some messages => some { (w.setCall i (.recording attempt)) with messages := messages }
      | none => some (w.setCall i (.remarking attempt sentAt))
  | .remarking attempt sentAt =>
      (markSent w.messages attempt.message.id none sentAt now).map fun messages =>
        { (w.setCall i (.recording attempt)) with messages := messages }
  | _ => none

/-- One action. -/
def step (w : World) : Action → Option World
  | .insert message => (w.messages.insert? message).map fun t => { w with messages := t }
  | .others directory => some { w with directory := directory }
  | .send i messageId finalAttempt =>
      match w.call i with
      | .idle =>
          match w.messages.find? (.id messageId) with
          | none => some (w.setCall i (.returned 0))
          | some message =>
              (w.directory.account message.providerAccountId).map fun channel =>
                w.setCall i (startSend message channel finalAttempt)
      | _ => none
  | .prepareFails i error =>
      match w.call i with
      | .prepared attempt => some (w.setCall i (catchSend attempt error))
      | _ => none
  | .sendMessage i =>
      match w.call i with
      | .prepared attempt => some (w.setCall i (.calling attempt))
      | _ => none
  | .accepted i providerMessageId providerTimestamp now =>
      match w.call i with
      | .calling attempt =>
          some (w.setCall i (.marking attempt providerMessageId (providerTimestamp.getD now)))
      | _ => none
  | .rejected i error =>
      match w.call i with
      | .calling attempt => some (w.setCall i (catchSend attempt error))
      | _ => none
  | .markSent i now => stepMarkSent w i now
  | .markSentFails i error =>
      match w.call i with
      | .marking attempt _ _ => some (w.setCall i (catchSend attempt error))
      | .remarking attempt _ => some (w.setCall i (catchSend attempt error))
      | _ => none
  | .recordSuccess i =>
      match w.call i with
      | .recording _ => some (w.setCall i (.returned 0))
      | _ => none
  | .recordFails i error =>
      match w.call i with
      | .recording attempt => some (w.setCall i (catchSend attempt error))
      | _ => none
  | .sweep i now messages =>
      if w.call i = .idle ∧ w.messages.Selects (stuck now) (fun _ _ => true) 100 messages then
        some (w.setCall i (startSweep messages))
      else none
  | .fail i now =>
      match w.call i with
      | .failing messageId code text rest =>
          some { (w.setCall i (afterFail code text rest)) with
            messages := fail w.messages messageId code text now }
      | _ => none
  | .receive i channelId receipt =>
      match w.call i with
      | .idle => some (w.setCall i (startReceipt w channelId receipt))
      | _ => none
  | .matchInternal i =>
      match w.call i with
      | .matching channelId receipt => some (w.setCall i (matchInternal w channelId receipt))
      | _ => none
  | .cover i messages =>
      match w.call i with
      | .covering channelId receipt identityId =>
          if w.messages.Selects (covered w.directory channelId receipt identityId)
              (fun _ _ => true) w.messages.rows.length messages then
            some (w.setCall i (afterTransition receipt messages 0))
          else none
      | _ => none
  | .transition i now =>
      match w.call i with
      | .applying receipt (message :: rest) changed =>
          let result := transition w.messages message receipt now
          some { (w.setCall i (afterTransition receipt rest (changed + result.2))) with
            messages := result.1 }
      | _ => none
  | .poll i channelId visitorId since =>
      match w.call i with
      | .idle =>
          match w.directory.identity channelId visitorId with
          | some identityId => some (w.setCall i (.fetching identityId since))
          | none => some (w.setCall i (.returned 0))
      | _ => none
  | .fetch i rows =>
      match w.call i with
      | .fetching identityId since =>
          if w.messages.Selects (visible w.directory identityId since)
              (fun a b => a.createdAt ≤ b.createdAt) 100 rows then
            some (w.setCall i (startDelivering rows))
          else none
      | _ => none
  | .deliver i now =>
      match w.call i with
      | .delivering delivered =>
          some { (w.setCall i (.returned delivered.length)) with
            messages := markFetched w.messages delivered now }
      | _ => none
  | .retry i workspaceId messageId =>
      match w.call i with
      | .idle =>
          match w.messages.find? (.id messageId) with
          | none => some (w.setCall i .threw)
          | some message =>
              (w.directory.account message.providerAccountId).map fun channel =>
                w.setCall i (startRetry message channel workspaceId)
      | _ => none
  | .markRetried i now =>
      match w.call i with
      | .retrying messageId =>
          some { (w.setCall i (.returned 0)) with messages := markRetried w.messages messageId now }
      | _ => none
  | .throws i => some (w.setCall i .threw)

/-- The calls around `messages` as a machine. -/
def machine : Machine World Action := ⟨step⟩

@[simp] theorem machine_step (w : World) (a : Action) : machine.step w a = step w a := rfl

@[simp] theorem World.setCall_messages (w : World) (i : CallId) (c : Call) :
    (w.setCall i c).messages = w.messages := rfl

@[simp] theorem World.setCall_self (w : World) (i : CallId) (c : Call) :
    (w.setCall i c).call i = c := by
  simp [World.setCall]

theorem World.setCall_other (w : World) {i j : CallId} (c : Call) (h : j ≠ i) :
    (w.setCall i c).call j = w.call j := by
  simp [World.setCall, h]

/-! ## The turns of a call -/

/-- What a step takes a call to: its next point, and the table it leaves. -/
inductive Turn (w : World) (i : CallId) : Action → Call → Messages → Prop where
  | missing {messageId : Id} {finalAttempt : Bool} :
      w.call i = .idle → w.messages.find? (.id messageId) = none →
      Turn w i (.send i messageId finalAttempt) (.returned 0) w.messages
  | sends {messageId : Id} {finalAttempt : Bool} {message : Message} {channel : ProviderAccount} :
      w.call i = .idle → w.messages.find? (.id messageId) = some message →
      w.directory.account message.providerAccountId = some channel →
      Turn w i (.send i messageId finalAttempt) (startSend message channel finalAttempt) w.messages
  | prepareFails {attempt : Attempt} {error : Thrown} : w.call i = .prepared attempt →
      Turn w i (.prepareFails i error) (catchSend attempt error) w.messages
  | calls {attempt : Attempt} : w.call i = .prepared attempt →
      Turn w i (.sendMessage i) (.calling attempt) w.messages
  | accepted {attempt : Attempt} {providerMessageId : Option String}
      {providerTimestamp : Option Date} {now : Date} : w.call i = .calling attempt →
      Turn w i (.accepted i providerMessageId providerTimestamp now)
        (.marking attempt providerMessageId (providerTimestamp.getD now)) w.messages
  | rejected {attempt : Attempt} {error : Thrown} : w.call i = .calling attempt →
      Turn w i (.rejected i error) (catchSend attempt error) w.messages
  | marks {attempt : Attempt} {providerMessageId : Option String} {sentAt now : Date}
      {t : Messages} : w.call i = .marking attempt providerMessageId sentAt →
      markSent w.messages attempt.message.id providerMessageId sentAt now = some t →
      Turn w i (.markSent i now) (.recording attempt) t
  | taken {attempt : Attempt} {providerMessageId : Option String} {sentAt now : Date} :
      w.call i = .marking attempt providerMessageId sentAt →
      markSent w.messages attempt.message.id providerMessageId sentAt now = none →
      Turn w i (.markSent i now) (.remarking attempt sentAt) w.messages
  | remarks {attempt : Attempt} {sentAt now : Date} {t : Messages} :
      w.call i = .remarking attempt sentAt →
      markSent w.messages attempt.message.id none sentAt now = some t →
      Turn w i (.markSent i now) (.recording attempt) t
  | markSentFails {attempt : Attempt} {providerMessageId : Option String} {sentAt : Date}
      {error : Thrown} : w.call i = .marking attempt providerMessageId sentAt →
      Turn w i (.markSentFails i error) (catchSend attempt error) w.messages
  | remarkFails {attempt : Attempt} {sentAt : Date} {error : Thrown} :
      w.call i = .remarking attempt sentAt →
      Turn w i (.markSentFails i error) (catchSend attempt error) w.messages
  | recordSuccess {attempt : Attempt} : w.call i = .recording attempt →
      Turn w i (.recordSuccess i) (.returned 0) w.messages
  | recordFails {attempt : Attempt} {error : Thrown} : w.call i = .recording attempt →
      Turn w i (.recordFails i error) (catchSend attempt error) w.messages
  | sweep {now : Date} {messages : List Message} : w.call i = .idle →
      w.messages.Selects (stuck now) (fun _ _ => true) 100 messages →
      Turn w i (.sweep i now messages) (startSweep messages) w.messages
  | fail {now : Date} {messageId : Id} {code text : String} {rest : List Id} :
      w.call i = .failing messageId code text rest →
      Turn w i (.fail i now) (afterFail code text rest)
        (fail w.messages messageId code text now)
  | receive {channelId : Id} {receipt : DeliveryReceipt} : w.call i = .idle →
      Turn w i (.receive i channelId receipt) (startReceipt w channelId receipt) w.messages
  | matchInternal {channelId : Id} {receipt : DeliveryReceipt} :
      w.call i = .matching channelId receipt →
      Turn w i (.matchInternal i) (matchInternal w channelId receipt) w.messages
  | cover {messages : List Message} {channelId identityId : Id} {receipt : DeliveryReceipt} :
      w.call i = .covering channelId receipt identityId →
      w.messages.Selects (covered w.directory channelId receipt identityId)
        (fun _ _ => true) w.messages.rows.length messages →
      Turn w i (.cover i messages) (afterTransition receipt messages 0) w.messages
  | transition {now : Date} {receipt : DeliveryReceipt} {message : Message} {rest : List Message}
      {changed : Nat} : w.call i = .applying receipt (message :: rest) changed →
      Turn w i (.transition i now)
        (afterTransition receipt rest (changed + (transition w.messages message receipt now).2))
        (transition w.messages message receipt now).1
  | polls {channelId identityId : Id} {visitorId : String} {since : Option Date} :
      w.call i = .idle → w.directory.identity channelId visitorId = some identityId →
      Turn w i (.poll i channelId visitorId since) (.fetching identityId since) w.messages
  | unknown {channelId : Id} {visitorId : String} {since : Option Date} :
      w.call i = .idle → w.directory.identity channelId visitorId = none →
      Turn w i (.poll i channelId visitorId since) (.returned 0) w.messages
  | fetch {rows : List Message} {identityId : Id} {since : Option Date} :
      w.call i = .fetching identityId since →
      w.messages.Selects (visible w.directory identityId since)
        (fun a b => a.createdAt ≤ b.createdAt) 100 rows →
      Turn w i (.fetch i rows) (startDelivering rows) w.messages
  | deliver {now : Date} {delivered : List Id} : w.call i = .delivering delivered →
      Turn w i (.deliver i now) (.returned delivered.length)
        (markFetched w.messages delivered now)
  | absent {workspaceId messageId : Id} :
      w.call i = .idle → w.messages.find? (.id messageId) = none →
      Turn w i (.retry i workspaceId messageId) .threw w.messages
  | retries {workspaceId messageId : Id} {message : Message} {channel : ProviderAccount} :
      w.call i = .idle → w.messages.find? (.id messageId) = some message →
      w.directory.account message.providerAccountId = some channel →
      Turn w i (.retry i workspaceId messageId) (startRetry message channel workspaceId) w.messages
  | markRetried {now : Date} {messageId : Id} : w.call i = .retrying messageId →
      Turn w i (.markRetried i now) (.returned 0) (markRetried w.messages messageId now)
  | throws : Turn w i (.throws i) .threw w.messages

theorem turn_of_stepMarkSent {w w' : World} {i : CallId} {now : Date}
    (h : stepMarkSent w i now = some w') :
    ∃ c t, Turn w i (.markSent i now) c t ∧ w' = { w.setCall i c with messages := t } := by
  rw [stepMarkSent] at h
  split at h
  next attempt providerMessageId sentAt hcall =>
    split at h
    next t ht =>
      cases h
      exact ⟨_, _, .marks hcall ht, rfl⟩
    next hnone =>
      cases h
      exact ⟨_, _, .taken hcall hnone, rfl⟩
  next attempt sentAt hcall =>
    obtain ⟨t, ht, rfl⟩ := Option.map_eq_some_iff.mp h
    exact ⟨_, _, .remarks hcall ht, rfl⟩
  next => cases h

/-- A step stores a message, changes what lies around the messages, or is the
turn of one call. -/
theorem step_cases {w w' : World} {a : Action} (h : step w a = some w') :
    (∃ message t, a = .insert message ∧ w.messages.insert? message = some t ∧
      w' = { w with messages := t }) ∨
    (∃ directory, a = .others directory ∧ w' = { w with directory := directory }) ∨
    ∃ i c t, Turn w i a c t ∧ w' = { w.setCall i c with messages := t } := by
  cases a with
  | insert message =>
      obtain ⟨t, ht, rfl⟩ := Option.map_eq_some_iff.mp h
      exact .inl ⟨message, t, rfl, ht, rfl⟩
  | others directory =>
      cases h
      exact .inr (.inl ⟨directory, rfl, rfl⟩)
  | send i messageId finalAttempt =>
      simp only [step] at h
      split at h
      next hcall =>
        split at h
        next hnone =>
          cases h
          exact .inr (.inr ⟨i, _, _, .missing hcall hnone, rfl⟩)
        next message hmessage =>
          obtain ⟨channel, hchannel, rfl⟩ := Option.map_eq_some_iff.mp h
          exact .inr (.inr ⟨i, _, _, .sends hcall hmessage hchannel, rfl⟩)
      next => cases h
  | prepareFails i error =>
      simp only [step] at h
      split at h
      next attempt hcall =>
        cases h
        exact .inr (.inr ⟨i, _, _, .prepareFails hcall, rfl⟩)
      next => cases h
  | sendMessage i =>
      simp only [step] at h
      split at h
      next attempt hcall =>
        cases h
        exact .inr (.inr ⟨i, _, _, .calls hcall, rfl⟩)
      next => cases h
  | accepted i providerMessageId providerTimestamp now =>
      simp only [step] at h
      split at h
      next attempt hcall =>
        cases h
        exact .inr (.inr ⟨i, _, _, .accepted hcall, rfl⟩)
      next => cases h
  | rejected i error =>
      simp only [step] at h
      split at h
      next attempt hcall =>
        cases h
        exact .inr (.inr ⟨i, _, _, .rejected hcall, rfl⟩)
      next => cases h
  | markSent i now =>
      obtain ⟨c, t, hturn, rfl⟩ := turn_of_stepMarkSent h
      exact .inr (.inr ⟨i, c, t, hturn, rfl⟩)
  | markSentFails i error =>
      simp only [step] at h
      split at h
      next attempt providerMessageId sentAt hcall =>
        cases h
        exact .inr (.inr ⟨i, _, _, .markSentFails hcall, rfl⟩)
      next attempt sentAt hcall =>
        cases h
        exact .inr (.inr ⟨i, _, _, .remarkFails hcall, rfl⟩)
      next => cases h
  | recordSuccess i =>
      simp only [step] at h
      split at h
      next attempt hcall =>
        cases h
        exact .inr (.inr ⟨i, _, _, .recordSuccess hcall, rfl⟩)
      next => cases h
  | recordFails i error =>
      simp only [step] at h
      split at h
      next attempt hcall =>
        cases h
        exact .inr (.inr ⟨i, _, _, .recordFails hcall, rfl⟩)
      next => cases h
  | sweep i now messages =>
      simp only [step] at h
      split at h
      next hsweep =>
        cases h
        exact .inr (.inr ⟨i, _, _, .sweep hsweep.1 hsweep.2, rfl⟩)
      next => cases h
  | fail i now =>
      simp only [step] at h
      split at h
      next messageId code text rest hcall =>
        cases h
        exact .inr (.inr ⟨i, _, _, .fail hcall, rfl⟩)
      next => cases h
  | receive i channelId receipt =>
      simp only [step] at h
      split at h
      next hcall =>
        cases h
        exact .inr (.inr ⟨i, _, _, .receive hcall, rfl⟩)
      next => cases h
  | matchInternal i =>
      simp only [step] at h
      split at h
      next channelId receipt hcall =>
        cases h
        exact .inr (.inr ⟨i, _, _, .matchInternal hcall, rfl⟩)
      next => cases h
  | cover i messages =>
      simp only [step] at h
      split at h
      next channelId receipt identityId hcall =>
        split at h
        next hselects =>
          cases h
          exact .inr (.inr ⟨i, _, _, .cover hcall hselects, rfl⟩)
        next => cases h
      next => cases h
  | transition i now =>
      simp only [step] at h
      split at h
      next receipt message rest changed hcall =>
        cases h
        exact .inr (.inr ⟨i, _, _, .transition hcall, rfl⟩)
      next => cases h
  | poll i channelId visitorId since =>
      simp only [step] at h
      split at h
      next hcall =>
        split at h
        next identityId hidentity =>
          cases h
          exact .inr (.inr ⟨i, _, _, .polls hcall hidentity, rfl⟩)
        next hnone =>
          cases h
          exact .inr (.inr ⟨i, _, _, .unknown hcall hnone, rfl⟩)
      next => cases h
  | fetch i rows =>
      simp only [step] at h
      split at h
      next identityId since hcall =>
        split at h
        next hselects =>
          cases h
          exact .inr (.inr ⟨i, _, _, .fetch hcall hselects, rfl⟩)
        next => cases h
      next => cases h
  | deliver i now =>
      simp only [step] at h
      split at h
      next delivered hcall =>
        cases h
        exact .inr (.inr ⟨i, _, _, .deliver hcall, rfl⟩)
      next => cases h
  | retry i workspaceId messageId =>
      simp only [step] at h
      split at h
      next hcall =>
        split at h
        next hnone =>
          cases h
          exact .inr (.inr ⟨i, _, _, .absent hcall hnone, rfl⟩)
        next message hmessage =>
          obtain ⟨channel, hchannel, rfl⟩ := Option.map_eq_some_iff.mp h
          exact .inr (.inr ⟨i, _, _, .retries hcall hmessage hchannel, rfl⟩)
      next => cases h
  | markRetried i now =>
      simp only [step] at h
      split at h
      next messageId hcall =>
        cases h
        exact .inr (.inr ⟨i, _, _, .markRetried hcall, rfl⟩)
      next => cases h
  | throws i =>
      cases h
      exact .inr (.inr ⟨i, _, _, .throws, rfl⟩)

/-! ## An example world -/

/-- A reply as `sendMessage` stores it. -/
def exampleReply : Message where
  id := "m"
  workspaceId := "workspace"
  conversationId := "conversation"
  providerAccountId := "channel"
  direction := .outbound
  senderType := .agent
  content := .text "Hello"
  text := "Hello"
  createdAt := 0
  updatedAt := 0

/-- No message, and one channel. -/
def World.init : World where
  messages := .empty
  directory := ⟨fun id => if id = "channel" then some exampleChannel else none,
    fun _ _ => none, fun _ => none⟩
  call := fun _ => .idle

/-- The status of a reply. -/
def World.replyStatus (w : World) (id : Id) : Option DeliveryStatus :=
  ((w.messages.find? (.id id)).filter fun m => Reply m).map Message.status

theorem World.replyStatus_eq_some {w : World} {id : Id} {s : DeliveryStatus} :
    w.replyStatus id = some s ↔
      ∃ m, w.messages.find? (.id id) = some m ∧ Reply m ∧ m.status = s := by
  simp [World.replyStatus, Option.filter_eq_some_iff, and_assoc]

/-! ## What a step does to a message -/

/-- The reply a call is about to mark as sent. -/
def Call.marks : Call → Option Id
  | .marking attempt _ _ => some attempt.message.id
  | .remarking attempt _ => some attempt.message.id
  | _ => none

/-- The ways an action changes a message, with what held before. -/
inductive RowStep (w : World) : Action → Message → Message → Prop where
  | same {a : Action} {m : Message} : RowStep w a m m
  | sent {i : CallId} {now sentAt : Date} {providerMessageId : Option String} {m : Message} :
      (w.call i).marks = some m.id → m.status = .pending →
      RowStep w (.markSent i now) m (markedSent providerMessageId sentAt now m)
  | failed {i : CallId} {now : Date} {code text : String} {rest : List Id} {m : Message} :
      w.call i = .failing m.id code text rest → m.status = .pending →
      RowStep w (.fail i now) m (failed code text now m)
  | received {i : CallId} {now : Date} {receipt : DeliveryReceipt} {message m : Message}
      {rest : List Message} {changed : Nat} :
      w.call i = .applying receipt (message :: rest) changed → message.id = m.id →
      message.status = m.status → Advances m.status receipt →
      RowStep w (.transition i now) m (received receipt now m)
  | fetched {i : CallId} {now : Date} {delivered : List Id} {m : Message} :
      w.call i = .delivering delivered → m.status = .sent →
      RowStep w (.deliver i now) m (fetched now m)
  | retried {i : CallId} {now : Date} {m : Message} :
      w.call i = .retrying m.id → RowStep w (.markRetried i now) m (retried now m)

/-- The update of `markSent` on the table changes the row of the call, while it
is `PENDING`. -/
theorem rowStep_of_markSent {w : World} {t : Messages} {i : CallId} {now sentAt : Date}
    {messageId id : Id} {providerMessageId : Option String} {m : Message}
    (hcall : (w.call i).marks = some messageId)
    (ht : markSent w.messages messageId providerMessageId sentAt now = some t)
    (hm : w.messages.find? (.id id) = some m) :
    ∃ m', t.find? (.id id) = some m' ∧ RowStep w (.markSent i now) m m' := by
  refine ⟨_, find?_markSent ht hm, ?_⟩
  split
  next hp =>
    simp only [Bool.and_eq_true, decide_eq_true_eq] at hp
    exact .sent (by rw [hcall, hp.1]) hp.2
  · exact .same

/-- A message under an id is still there after a step, changed in one of these
ways or not at all. -/
theorem step_row {w w' : World} {a : Action} {id : Id} {m : Message} (h : step w a = some w')
    (hm : w.messages.find? (.id id) = some m) :
    ∃ m', w'.messages.find? (.id id) = some m' ∧ RowStep w a m m' := by
  obtain ⟨message, t, rfl, ht, rfl⟩ | ⟨directory, rfl, rfl⟩ | ⟨i, c, t, hturn, rfl⟩ := step_cases h
  · exact ⟨m, Table.find?_of_insert?_of_some ht hm, .same⟩
  · exact ⟨m, hm, .same⟩
  · cases hturn with
    | marks hcall ht | remarks hcall ht =>
        exact rowStep_of_markSent (by rw [hcall]; rfl) ht hm
    | @fail now messageId code text rest hcall =>
        refine ⟨_, find?_fail messageId code text now hm, ?_⟩
        split
        next hp =>
          simp only [Bool.and_eq_true, decide_eq_true_eq] at hp
          exact .failed (by rw [hcall, hp.1]) hp.2
        next => exact .same
    | @transition now receipt message rest changed hcall =>
        refine ⟨_, find?_transition message receipt now hm, ?_⟩
        split
        next hp =>
          obtain ⟨hadv, hread⟩ := hp
          simp only [asRead, Bool.and_eq_true, decide_eq_true_eq] at hread
          exact .received hcall hread.1.symm hread.2.symm (by rw [hread.2]; exact hadv)
        next => exact .same
    | @deliver now delivered hcall =>
        refine ⟨_, find?_markFetched delivered now hm, ?_⟩
        split
        next hp =>
          simp only [Bool.and_eq_true, decide_eq_true_eq] at hp
          exact .fetched hcall hp.2
        next => exact .same
    | @markRetried now messageId hcall =>
        refine ⟨_, find?_markRetried messageId now hm, ?_⟩
        split
        next hp => exact .retried (by rw [hcall, of_decide_eq_true hp])
        next => exact .same
    | _ => exact ⟨m, hm, .same⟩

end Vynor.Delivery
