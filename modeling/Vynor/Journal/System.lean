import Vynor.Journal.Events
import Vynor.Lib.Machine

/-!
# Journaling provider events

Any number of transactions journal batches of provider events.
`journalProviderEvents` opens a transaction for one call, and a caller may make
calls of `journalProviderEventsInTransaction` in a transaction it holds.

A row that is inserted is in the table at once, under the call that inserted
it, and the unique indexes see it.  Other transactions read it when its
transaction has committed, and a rollback takes it away.
`INSERT … ON CONFLICT DO NOTHING` skips a row whose key is taken by a committed
row or by one of its own transaction, and waits where it is taken by a
transaction that is still open.  A transaction may roll back at any point.

Generated ids are unique: an insert under an id that is taken cannot happen.
-/

namespace Vynor.Journal

open Lib (Table Machine)

abbrev TxId := Nat

/-- A call: its transaction, and how many calls that transaction made before. -/
structure CallRef where
  tx : TxId
  index : Nat
deriving DecidableEq, Repr

/-- A row with the call that inserted it. -/
structure Tuple (ρ : Type) where
  row : ρ
  call : CallRef
deriving DecidableEq, Repr

abbrev EventTable := Table (Tuple ProviderEvent) fun t => t.row.keys

abbrev OutboxTable := Table (Tuple Outbox.OutboxEvent) fun t => t.row.keys

/-- A call that has returned. -/
structure Finished where
  params : JournalProviderEventsParams
  result : JournalProviderEventsResult
deriving DecidableEq, Repr

/-- Where a transaction stands in a call.  `created` are the ids that
`createManyAndReturn` returns. -/
inductive Stage where
  | between
  | inserting (params : JournalProviderEventsParams) (purgeAfter : Date)
      (rest : List JournalEventInput) (created : List Id)
  | queueing (params : JournalProviderEventsParams) (created rest : List Id)
deriving DecidableEq, Repr

/-- The events the call has inserted so far. -/
def Stage.created : Stage → List Id
  | .between => []
  | .inserting _ _ _ created => created
  | .queueing _ created _ => created

/-- The events that have no outbox row yet. -/
def Stage.unqueued : Stage → List Id
  | .between => []
  | .inserting _ _ _ created => created
  | .queueing _ _ rest => rest

/-- A transaction.  `held` tells whether a caller holds it. -/
inductive Tx where
  | idle
  | active (held : Bool) (finished : List Finished) (stage : Stage)
  | committed (finished : List Finished)
  | rolledBack
deriving DecidableEq, Repr

/-- The calls that have returned in a transaction. -/
def Tx.finished : Tx → List Finished
  | .active _ finished _ => finished
  | .committed finished => finished
  | _ => []

def Tx.isCommitted : Tx → Bool
  | .committed _ => true
  | _ => false

/-- The point in the call that is under way. -/
def Tx.stage : Tx → Stage
  | .active _ _ stage => stage
  | _ => .between

structure World where
  events : EventTable
  outbox : OutboxTable
  tx : TxId → Tx

/-- The same world with one transaction at another point. -/
def World.setTx (w : World) (i : TxId) (t : Tx) : World :=
  { w with tx := Function.update w.tx i t }

/-- The call a transaction is in. -/
def callRef (i : TxId) (finished : List Finished) : CallRef := ⟨i, finished.length⟩

/-- The result of a call. -/
def resultOf (params : JournalProviderEventsParams) (created : List Id) :
    JournalProviderEventsResult where
  acceptedEventIds := created
  duplicateCount := params.events.length - created.length

/-- What a call returns for an empty batch. -/
def emptyCall (params : JournalProviderEventsParams) : Finished := ⟨params, ⟨[], 0⟩⟩

/-- The point where `journalProviderEventsInTransaction` starts. -/
def startCall (held : Bool) (finished : List Finished) (params : JournalProviderEventsParams)
    (now : Date) : Tx :=
  if params.events = [] then .active held (finished ++ [emptyCall params]) .between
  else .active held finished
    (.inserting params (purgeAfter params now) (uniqueEvents params.events) [])

/-- What can happen next, with the ids and times the process takes. -/
inductive Action where
  | journalProviderEvents (i : TxId) (params : JournalProviderEventsParams) (now : Date)
  | begin (i : TxId)
  | call (i : TxId) (params : JournalProviderEventsParams) (now : Date)
  | insert (i : TxId) (id : Id)
  | inserted (i : TxId)
  | createOutboxEvent (i : TxId) (id : Id) (now : Date)
  | returns (i : TxId)
  | commit (i : TxId)
  | rollback (i : TxId)
deriving DecidableEq, Repr

/-- One row of `createManyAndReturn`. -/
def stepInsert (w : World) (i : TxId) (id : Id) : Option World :=
  match w.tx i with
  | .active held finished (.inserting params purgeAfter (event :: rest) created) =>
      match w.events.find? (.provider params.providerAccountId event.providerEventKey) with
      | some t =>
          if (w.tx t.call.tx).isCommitted ∨ t.call.tx = i then
            some (w.setTx i (.active held finished (.inserting params purgeAfter rest created)))
          else none
      | none =>
          (w.events.insert? ⟨newProviderEvent params purgeAfter id event, callRef i finished⟩).map
            fun events =>
              { w.setTx i (.active held finished
                  (.inserting params purgeAfter rest (created ++ [id]))) with
                events := events }
  | _ => none

/-- The outbox row of the next created event. -/
def stepCreateOutboxEvent (w : World) (i : TxId) (id : Id) (now : Date) : Option World :=
  match w.tx i with
  | .active held finished (.queueing params created (event :: rest)) =>
      (w.outbox.insert? ⟨receivedEvent params event id now, callRef i finished⟩).map fun outbox =>
        { w.setTx i (.active held finished (.queueing params created rest)) with outbox := outbox }
  | _ => none

/-- One action. -/
def step (w : World) : Action → Option World
  | .journalProviderEvents i params now =>
      match w.tx i with
      | .idle =>
          some (w.setTx i
            (if params.events = [] then .committed [emptyCall params]
              else startCall false [] params now))
      | _ => none
  | .begin i =>
      match w.tx i with
      | .idle => some (w.setTx i (.active true [] .between))
      | _ => none
  | .call i params now =>
      match w.tx i with
      | .active true finished .between => some (w.setTx i (startCall true finished params now))
      | _ => none
  | .insert i id => stepInsert w i id
  | .inserted i =>
      match w.tx i with
      | .active held finished (.inserting params _ [] created) =>
          some (w.setTx i (.active held finished (.queueing params created created)))
      | _ => none
  | .createOutboxEvent i id now => stepCreateOutboxEvent w i id now
  | .returns i =>
      match w.tx i with
      | .active held finished (.queueing params created []) =>
          some (w.setTx i
            (.active held (finished ++ [⟨params, resultOf params created⟩]) .between))
      | _ => none
  | .commit i =>
      match w.tx i with
      | .active _ finished .between => some (w.setTx i (.committed finished))
      | _ => none
  | .rollback i =>
      match w.tx i with
      | .active _ _ _ =>
          some { w.setTx i .rolledBack with
            events := w.events.retain fun t => t.call.tx ≠ i
            outbox := w.outbox.retain fun t => t.call.tx ≠ i }
      | _ => none

/-- Journaling as a machine. -/
def machine : Machine World Action := ⟨step⟩

@[simp] theorem machine_step (w : World) (a : Action) : machine.step w a = step w a := rfl

/-- Empty tables, and no transaction. -/
def World.init : World := ⟨.empty, .empty, fun _ => .idle⟩

/-- The provider events that other transactions see. -/
def World.committedEvents (w : World) : List ProviderEvent :=
  (w.events.rows.filter fun t => (w.tx t.call.tx).isCommitted).map Tuple.row

/-- The outbox rows that other transactions see. -/
def World.committedOutbox (w : World) : List Outbox.OutboxEvent :=
  (w.outbox.rows.filter fun t => (w.tx t.call.tx).isCommitted).map Tuple.row

/-- The ids of the events a call has inserted. -/
def World.insertedBy (w : World) (c : CallRef) : List Id :=
  (w.events.rows.filter fun t => t.call = c).map fun t => t.row.id

section SetTx

variable (w : World) (i : TxId) (t : Tx)

@[simp] theorem World.setTx_events : (w.setTx i t).events = w.events := rfl

@[simp] theorem World.setTx_outbox : (w.setTx i t).outbox = w.outbox := rfl

@[simp] theorem World.setTx_self : (w.setTx i t).tx i = t := by
  simp [World.setTx]

end SetTx

theorem World.setTx_other (w : World) {i j : TxId} (t : Tx) (h : j ≠ i) :
    (w.setTx i t).tx j = w.tx j := by
  simp [World.setTx, h]

end Vynor.Journal
