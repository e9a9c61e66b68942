import Vynor.Delivery.Errors
import Vynor.Lib.Machine
import Vynor.Webhooks.Routing

/-!
# Channels and their health

`ChannelsService` of the API connects, reconnects, tests and removes channels,
and `ChannelHealthRecorder` of the worker writes down what it observes while
sending and polling.  All of them read the row of a channel first and write it
in a later transaction, so any call may write between the two.

A worker may hold a row for as long as it likes and record any number of
outcomes with it.  What the provider answers is part of the action.
-/

namespace Vynor.Channels

open Lib
open Delivery (ChannelProviderError Thrown)
open Webhooks (ChannelKey PROVIDER_CHANNEL_TYPES)

/-- A row of `provider_accounts`, without its documents. -/
structure Channel where
  id : Id
  workspaceId : Id
  channelType : ChannelType
  provider : ChannelProviderType
  name : String
  description : Option String := none
  accountIdentifier : String
  displayIdentifier : Option String := none
  status : ProviderAccountStatus := .active
  statusReason : Option String := none
  lastErrorAt : Option Date := none
  lastHealthCheckAt : Option Date := none
  connectedAt : Option Date := none
  syncLeaseExpiresAt : Option Date := none
  deletedAt : Option Date := none
deriving DecidableEq, Repr

def Channel.keys (c : Channel) : List ChannelKey :=
  [.id c.id, .account c.workspaceId c.channelType c.accountIdentifier]

@[simp] theorem Channel.id_mem_keys {c : Channel} {id : Id} :
    ChannelKey.id id ∈ c.keys ↔ c.id = id := by
  simp [Channel.keys, eq_comm]

abbrev ProviderAccounts := Table Channel Channel.keys

/-- The values a statement sets in a row.  None of them is in a key. -/
structure ChannelData where
  name : Channel → String := Channel.name
  description : Channel → Option String := Channel.description
  provider : Channel → ChannelProviderType := Channel.provider
  displayIdentifier : Channel → Option String := Channel.displayIdentifier
  status : ProviderAccountStatus
  statusReason : Channel → Option String := Channel.statusReason
  lastErrorAt : Channel → Option Date := Channel.lastErrorAt
  lastHealthCheckAt : Channel → Option Date := Channel.lastHealthCheckAt
  connectedAt : Channel → Option Date := Channel.connectedAt
  syncLeaseExpiresAt : Channel → Option Date := Channel.syncLeaseExpiresAt
  deletedAt : Channel → Option Date := Channel.deletedAt

/-- The row with the values set. -/
def ChannelData.set (data : ChannelData) (c : Channel) : Channel :=
  { c with
    name := data.name c
    description := data.description c
    provider := data.provider c
    displayIdentifier := data.displayIdentifier c
    status := data.status
    statusReason := data.statusReason c
    lastErrorAt := data.lastErrorAt c
    lastHealthCheckAt := data.lastHealthCheckAt c
    connectedAt := data.connectedAt c
    syncLeaseExpiresAt := data.syncLeaseExpiresAt c
    deletedAt := data.deletedAt c }

theorem ChannelData.keys_set (data : ChannelData) (c : Channel) : (data.set c).keys = c.keys := rfl

/-- `UPDATE … WHERE id`, which fails where there is no such row. -/
def update (t : ProviderAccounts) (id : Id) (data : ChannelData) : Option ProviderAccounts :=
  match t.find? (.id id) with
  | none => none
  | some _ => some (t.updateMany (fun c => c.id = id) data.set data.keys_set)

/-! ## The worker -/

/-- The status a provider error sets. -/
def failureStatus (error : ChannelProviderError) : ProviderAccountStatus :=
  if error.requiresReconnect then .disconnected else .error

/-- `ChannelHealthRecorder.recordFailure`. -/
def recordFailure (t : ProviderAccounts) (channel : Channel) (error : ChannelProviderError)
    (now : Date) : Option ProviderAccounts :=
  let status := failureStatus error
  -- A reconnect requirement is never downgraded to a plain warning.
  if channel.status = .disconnected ∧ status = .error then some t
  else update t channel.id
    { status := status
      statusReason := fun _ => some error.message
      lastErrorAt := fun _ => some now }

/-- The values a success sets. -/
def successData : ChannelData where
  status := .active
  statusReason := fun _ => none

/-- `ChannelHealthRecorder.recordSuccess`. -/
def recordSuccess (t : ProviderAccounts) (channel : Channel) : ProviderAccounts :=
  if channel.status ≠ .error then t
  else t.updateMany (fun c => c.id = channel.id ∧ c.status = .error) successData.set
    successData.keys_set

/-! ## The API -/

/-- `findRow`. -/
def findRow (t : ProviderAccounts) (workspaceId id : Id) : Option Channel :=
  t.rows.find? fun c => c.id = id ∧ c.workspaceId = workspaceId ∧ c.deletedAt = none

/-- What a health check comes to. -/
inductive Checked where
  | health (isHealthy : Bool) (message : String)
  | thrown (error : Thrown)
deriving DecidableEq, Repr

/-- The `ok`, `status` and `message` of a test.  Any other error is thrown again. -/
def testResult : Checked → Option (Bool × ProviderAccountStatus × String)
  | .health isHealthy message => some (isHealthy, if isHealthy then .active else .error, message)
  | .thrown (.provider error) => some (false, failureStatus error, error.message)
  | .thrown (.cipher _) =>
      some (false, .disconnected, "Stored credentials could not be read. Reconnect the channel.")
  | .thrown (.other _) => none

/-- The transaction of `test`. -/
def test (t : ProviderAccounts) (row : Channel) (checkedAt : Date) (checked : Checked) :
    Option ProviderAccounts := do
  let (ok, status, message) ← testResult checked
  update t row.id
    { status := status
      lastHealthCheckAt := fun _ => some checkedAt
      statusReason := fun _ => if ok then none else some message
      lastErrorAt := fun c => if ok then c.lastErrorAt else some checkedAt }

/-- `CreateChannelRequest` and `ReconnectChannelRequest`, without the
credentials. -/
structure ConnectionRequest where
  provider : ChannelProviderType
  name : String
  description : Option String := none
deriving DecidableEq, Repr

/-- `VerifiedAccount`. -/
structure VerifiedAccount where
  accountIdentifier : Option String
  displayIdentifier : String
deriving DecidableEq, Repr

/-- A channel type in lower case. -/
def channelTypeName : ChannelType → String
  | .whatsapp => "whatsapp"
  | .instagram => "instagram"
  | .messenger => "messenger"
  | .telegram => "telegram"
  | .email => "email"
  | .line => "line"
  | .webchat => "webchat"
  | .api => "api"

/-- What `create` has read and made up before its transaction. -/
structure Creation where
  workspaceId : Id
  request : ConnectionRequest
  verified : VerifiedAccount
  accountIdentifier : String
  existing : Option Channel
deriving DecidableEq, Repr

/-- `create` before its transaction.  An account that is connected is refused. -/
def startCreate (t : ProviderAccounts) (workspaceId : Id) (request : ConnectionRequest)
    (verified : VerifiedAccount) (secretToken : String) : Option Creation :=
  let channelType := PROVIDER_CHANNEL_TYPES request.provider
  let accountIdentifier :=
    verified.accountIdentifier.getD (channelTypeName channelType ++ "_" ++ secretToken)
  let existing := t.find? (.account workspaceId channelType accountIdentifier)
  if existing.any fun c => c.deletedAt.isNone then none
  else some
    { workspaceId := workspaceId
      request := request
      verified := verified
      accountIdentifier := accountIdentifier
      existing := existing }

/-- The transaction of `create`: a deleted channel of the account is revived. -/
def create (t : ProviderAccounts) (creation : Creation) (generatedId : Id) (now : Date) :
    Option ProviderAccounts :=
  let data : ChannelData :=
    { name := fun _ => creation.request.name
      description := fun _ => creation.request.description
      provider := fun _ => creation.request.provider
      displayIdentifier := fun _ => some creation.verified.displayIdentifier
      status := .active
      statusReason := fun _ => none
      lastErrorAt := fun _ => none
      lastHealthCheckAt := fun _ => some now
      connectedAt := fun _ => some now
      deletedAt := fun _ => none }
  match creation.existing with
  | some existing => update t existing.id data
  | none =>
      t.insert? <| data.set
        { id := generatedId
          workspaceId := creation.workspaceId
          channelType := PROVIDER_CHANNEL_TYPES creation.request.provider
          provider := creation.request.provider
          name := creation.request.name
          accountIdentifier := creation.accountIdentifier }

/-- `reconnect` refuses another platform and another account. -/
def mayReconnect (row : Channel) (request : ConnectionRequest) (verified : VerifiedAccount) :
    Bool :=
  request.provider = row.provider &&
    (truthy verified.accountIdentifier).all fun identifier => identifier = row.accountIdentifier

/-- The transaction of `reconnect`. -/
def reconnect (t : ProviderAccounts) (row : Channel) (verified : VerifiedAccount) (now : Date) :
    Option ProviderAccounts :=
  update t row.id
    { displayIdentifier := fun _ => some verified.displayIdentifier
      status := .active
      statusReason := fun _ => none
      lastErrorAt := fun _ => none
      lastHealthCheckAt := fun _ => some now
      connectedAt := fun _ => some (row.connectedAt.getD now) }

/-- The transaction of `remove`. -/
def remove (t : ProviderAccounts) (row : Channel) (now : Date) : Option ProviderAccounts :=
  update t row.id
    { deletedAt := fun _ => some now
      status := .inactive
      syncLeaseExpiresAt := fun _ => none }

/-! ## Any number of calls -/

abbrev CallId := Nat

/-- Where a call stands. -/
inductive Call where
  | idle
  | holding (channel : Channel)
  | testing (row : Channel) (checkedAt : Date)
  | creating (creation : Creation)
  | reconnecting (row : Channel) (verified : VerifiedAccount)
  | removing (row : Channel)
  | returned
deriving DecidableEq, Repr

/-- The row a call has read. -/
def Call.channel? : Call → Option Channel
  | .holding channel => some channel
  | .testing row _ => some row
  | .creating creation => creation.existing
  | .reconnecting row _ => some row
  | .removing row => some row
  | _ => none

structure World where
  channels : ProviderAccounts
  call : CallId → Call

def World.setCall (w : World) (i : CallId) (c : Call) : World :=
  { w with call := Function.update w.call i c }

/-- A call that has written the table. -/
def World.wrote (w : World) (i : CallId) (t : ProviderAccounts) : World where
  channels := t
  call := Function.update w.call i .returned

/-- What can happen next. -/
inductive Action where
  | readChannel (i : CallId) (id : Id)
  | recordFailure (i : CallId) (error : ChannelProviderError) (now : Date)
  | recordSuccess (i : CallId)
  | startTest (i : CallId) (workspaceId id : Id) (checkedAt : Date)
  | finishTest (i : CallId) (checked : Checked)
  | startCreate (i : CallId) (workspaceId : Id) (request : ConnectionRequest)
      (verified : VerifiedAccount) (secretToken : String)
  | finishCreate (i : CallId) (generatedId : Id) (now : Date)
  | startReconnect (i : CallId) (workspaceId id : Id) (request : ConnectionRequest)
      (verified : VerifiedAccount)
  | finishReconnect (i : CallId) (now : Date)
  | startRemove (i : CallId) (workspaceId id : Id)
  | finishRemove (i : CallId) (now : Date)
  | fail (i : CallId)
deriving DecidableEq, Repr

/-- A call on a channel starts where it finds the row. -/
def startCall (w : World) (i : CallId) (row : Option Channel) (next : Channel → Call) :
    Option World :=
  match w.call i with
  | .idle => row.map fun row => w.setCall i (next row)
  | _ => none

def step (w : World) : Action → Option World
  | .readChannel i id =>
      match w.call i with
      | .idle | .holding _ => (w.channels.find? (.id id)).map fun c => w.setCall i (.holding c)
      | _ => none
  | .recordFailure i error now =>
      match w.call i with
      | .holding channel =>
          (recordFailure w.channels channel error now).map fun t => { w with channels := t }
      | _ => none
  | .recordSuccess i =>
      match w.call i with
      | .holding channel => some { w with channels := recordSuccess w.channels channel }
      | _ => none
  | .startTest i workspaceId id checkedAt =>
      startCall w i (findRow w.channels workspaceId id) fun row => .testing row checkedAt
  | .finishTest i checked =>
      match w.call i with
      | .testing row checkedAt => (test w.channels row checkedAt checked).map (w.wrote i)
      | _ => none
  | .startCreate i workspaceId request verified secretToken =>
      match w.call i with
      | .idle =>
          (startCreate w.channels workspaceId request verified secretToken).map fun creation =>
            w.setCall i (.creating creation)
      | _ => none
  | .finishCreate i generatedId now =>
      match w.call i with
      | .creating creation => (create w.channels creation generatedId now).map (w.wrote i)
      | _ => none
  | .startReconnect i workspaceId id request verified =>
      startCall w i ((findRow w.channels workspaceId id).filter fun row =>
        mayReconnect row request verified) fun row => .reconnecting row verified
  | .finishReconnect i now =>
      match w.call i with
      | .reconnecting row verified => (reconnect w.channels row verified now).map (w.wrote i)
      | _ => none
  | .startRemove i workspaceId id => startCall w i (findRow w.channels workspaceId id) .removing
  | .finishRemove i now =>
      match w.call i with
      | .removing row => (remove w.channels row now).map (w.wrote i)
      | _ => none
  | .fail i => some (w.setCall i .returned)

def machine : Machine World Action := ⟨step⟩

end Vynor.Channels
