import Vynor.Conversations.Requests
import Vynor.Delivery.System
import Vynor.Inbound.Runs

/-!
# Processing into the conversations

The runs of `process` together with the services they call.  A run that meets a
message starts a call of `ingestMessage` among the ingests and agents of the
conversation database.  One that meets a receipt is itself at a point of
`applyReceipt`, on the same table of messages.  `Await` says which of the two a
run waits for.

Ingests of other runs, agents and other code move the conversations at any time,
and every await may reject.  The adapter returns the same results for an event
each time it is asked.
-/

namespace Vynor.Inbound.Core

open Lib (Table Machine)
open Journal (ProviderEvent ProviderEventStatus)
open Conversations (IngestRequest)

/-- What does not change: the channels, and what `normalizeInbound` returns for
an event. -/
structure Env where
  channel : Id → ProviderAccount
  results : Id → List InboundResult

/-- What a run awaits while it handles a result. -/
inductive Await where
  | none
  | ingest (call : Conversations.CallId)
  | receipt (call : Delivery.Call)

structure World where
  runs : Runs.World
  core : Conversations.World
  directory : Delivery.Directory
  await : CallId → Await

/-- What the receipts look up. -/
def World.delivery (w : World) : Delivery.World :=
  ⟨w.core.db.messages, w.directory, fun _ => .idle⟩

/-- The same world with another table of messages. -/
def World.setMessages (w : World) (messages : Messages) : World :=
  { w with core := { w.core with db := { w.core.db with messages := messages } } }

/-- The same world with one run at another await. -/
def World.setAwait (w : World) (i : CallId) (x : Await) : World :=
  { w with await := Function.update w.await i x }

/-- The channel of an event. -/
def Env.channelOf (env : Env) (event : ProviderEvent) : ProviderAccount :=
  env.channel event.providerAccountId

/-- The channel of an event was deleted. -/
def Env.deleted (env : Env) (event : ProviderEvent) : Bool :=
  (env.channelOf event).deletedAt.isSome

/-- What can happen next, and what the environment answers. -/
inductive Action where
  | journal (event : ProviderEvent)
  | start (i : CallId) (eventId : Id)
  | read (i : CallId)
  | normalize (i : CallId)
  | normalizeFails (i : CallId) (error : ProcessError)
  | ingest (i : CallId) (call : Conversations.CallId) (messageId : Id)
  | core (a : Conversations.Action)
  | stored (i : CallId)
  | ingestFails (i : CallId) (error : ProcessError)
  | applyReceipt (i : CallId)
  | matchInternal (i : CallId)
  | cover (i : CallId) (messages : List Message)
  | transition (i : CallId) (now : Date)
  | applied (i : CallId)
  | receiptFails (i : CallId) (message : String)
  | pass (i : CallId)
  | others (directory : Delivery.Directory)
  | write (i : CallId) (now : Date)
  | lose (i : CallId) (now : Date) (error : ProcessError)
  | throws (i : CallId) (error : ProcessError)
  | crash (i : CallId)

/-- The run an action moves. -/
def Action.run? : Action → Option CallId
  | .start i _ => some i
  | .read i => some i
  | .normalize i => some i
  | .normalizeFails i _ => some i
  | .ingest i _ _ => some i
  | .stored i => some i
  | .ingestFails i _ => some i
  | .applyReceipt i => some i
  | .matchInternal i => some i
  | .cover i _ => some i
  | .transition i _ => some i
  | .applied i => some i
  | .receiptFails i _ => some i
  | .pass i => some i
  | .write i _ => some i
  | .lose i _ _ => some i
  | .throws i _ => some i
  | .crash i => some i
  | _ => none

/-- A step of the runs. -/
def World.runsStep (w : World) (a : Runs.Action) : Option World :=
  (Runs.step w.runs a).map fun runs => { w with runs := runs }

/-- The arguments of `ingestMessage`.  The first message that is stored takes the
id of the event. -/
def ingestRequest (env : Env) (event : ProviderEvent) (data : Conversations.InboundMessage)
    (tally : Tally) (messageId : Id) : IngestRequest where
  channel := env.channelOf event
  message := data
  providerEventId := event.id
  messageId := if tally.messagesStored = 0 then event.id else messageId

/-- The start of `ingestMessage`. -/
def stepIngest (env : Env) (w : World) (i : CallId) (call : Conversations.CallId)
    (messageId : Id) : Option World :=
  match w.await i, w.runs.call i with
  | .none, .handling event (.message data :: _) tally =>
      (Conversations.step w.core (.ingest call (ingestRequest env event data tally messageId))).map
        fun core => { w.setAwait i (.ingest call) with core := core }
  | _, _ => none

/-- `ingestMessage` has resolved. -/
def stepStored (w : World) (i : CallId) : Option World :=
  match w.await i, w.runs.call i with
  | .ingest call, .handling _ (.message _ :: _) _ =>
      match w.core.call call with
      | .ingested _ _ => (w.setAwait i .none).runsStep (.answer i .resolves)
      | _ => none
  | _, _ => none

/-- `ingestMessage` has rejected. -/
def stepIngestFails (w : World) (i : CallId) (error : ProcessError) : Option World :=
  match w.await i with
  | .ingest call =>
      match w.core.call call with
      | .threw => (w.setAwait i .none).runsStep (.answer i (.throws error))
      | _ => none
  | _ => none

/-- The start of `applyReceipt`. -/
def stepApplyReceipt (env : Env) (w : World) (i : CallId) : Option World :=
  match w.await i, w.runs.call i with
  | .none, .handling event (.deliveryReceipt receipt :: _) _ =>
      some (w.setAwait i (.receipt (Delivery.startReceipt w.delivery (env.channelOf event).id receipt)))
  | _, _ => none

/-- The lookup by VYNOR's own id.  Where it finds nothing, the receipt is not
matchable yet: it is given up, or the run goes to its `catch`. -/
def stepMatchInternal (w : World) (i : CallId) : Option World :=
  match w.await i with
  | .receipt (.matching channelId receipt) =>
      match Delivery.matchInternal w.delivery channelId receipt with
      | .threw => (w.setAwait i .none).runsStep (.answer i .unmatched)
      | call => some (w.setAwait i (.receipt call))
  | _ => none

/-- The candidates of a watermark. -/
def stepCover (w : World) (i : CallId) (messages : List Message) : Option World :=
  match w.await i with
  | .receipt (.covering channelId receipt identityId) =>
      if w.core.db.messages.Selects (Delivery.covered w.directory channelId receipt identityId)
          (fun _ _ => true) w.core.db.messages.rows.length messages then
        some (w.setAwait i (.receipt (Delivery.afterTransition receipt messages 0)))
      else none
  | _ => none

/-- One `transition` of a receipt. -/
def stepTransition (w : World) (i : CallId) (now : Date) : Option World :=
  match w.await i with
  | .receipt (.applying receipt (message :: rest) changed) =>
      let result := Delivery.transition w.core.db.messages message receipt now
      some ((w.setMessages result.1).setAwait i
        (.receipt (Delivery.afterTransition receipt rest (changed + result.2))))
  | _ => none

/-- `applyReceipt` has resolved. -/
def stepApplied (w : World) (i : CallId) : Option World :=
  match w.await i, w.runs.call i with
  | .receipt (.returned _), .handling _ (.deliveryReceipt _ :: _) _ =>
      (w.setAwait i .none).runsStep (.answer i .resolves)
  | _, _ => none

/-- `applyReceipt` has rejected with an error of the database. -/
def stepReceiptFails (w : World) (i : CallId) (message : String) : Option World :=
  match w.await i with
  | .receipt _ => (w.setAwait i .none).runsStep (.answer i (.throws (.other message)))
  | _ => none

/-- A result that is ignored, and the end of the loop. -/
def stepPass (w : World) (i : CallId) : Option World :=
  match w.runs.call i with
  | .handling _ (.ignored _ :: _) _ => w.runsStep (.answer i .resolves)
  | .handling _ [] _ => w.runsStep (.answer i .resolves)
  | _ => none

/-- `normalizeInbound` has resolved. -/
def stepNormalize (env : Env) (w : World) (i : CallId) : Option World :=
  match w.runs.call i with
  | .normalizing event => w.runsStep (.answer i (.normalized (env.results event.id)))
  | _ => none

/-- The read of the event and its channel. -/
def stepRead (env : Env) (w : World) (i : CallId) : Option World :=
  match w.runs.call i with
  | .starting eventId =>
      w.runsStep (.read i ((w.runs.events.find? (.id eventId)).any env.deleted))
  | _ => none

/-- One action. -/
def step (env : Env) (w : World) : Action → Option World
  | .journal event => w.runsStep (.journal event)
  | .start i eventId => w.runsStep (.start i eventId)
  | .read i => stepRead env w i
  | .normalize i => stepNormalize env w i
  | .normalizeFails i error =>
      match w.runs.call i with
      | .normalizing _ => w.runsStep (.answer i (.throws error))
      | _ => none
  | .ingest i call messageId => stepIngest env w i call messageId
  | .core a => (Conversations.step w.core a).map fun core => { w with core := core }
  | .stored i => stepStored w i
  | .ingestFails i error => stepIngestFails w i error
  | .applyReceipt i => stepApplyReceipt env w i
  | .matchInternal i => stepMatchInternal w i
  | .cover i messages => stepCover w i messages
  | .transition i now => stepTransition w i now
  | .applied i => stepApplied w i
  | .receiptFails i message => stepReceiptFails w i message
  | .pass i => stepPass w i
  | .others directory => some { w with directory := directory }
  | .write i now => w.runsStep (.write i now)
  | .lose i now error => w.runsStep (.lose i now error)
  | .throws i error => w.runsStep (.throws i error)
  | .crash i => (w.setAwait i .none).runsStep (.crash i)

/-- Processing into the conversations as a machine. -/
def machine (env : Env) : Machine World Action := ⟨step env⟩

@[simp] theorem machine_step (env : Env) (w : World) (a : Action) :
    (machine env).step w a = step env w a := rfl

/-- No run and no call is under way. -/
structure World.Idle (w : World) : Prop where
  runs : ∀ i, w.runs.call i = .idle
  await : ∀ i, w.await i = .none
  core : ∀ j, w.core.call j = .idle

end Vynor.Inbound.Core
