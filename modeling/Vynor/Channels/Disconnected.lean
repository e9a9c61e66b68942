import Vynor.Channels.Services

/-!
# A channel that needs reconnecting

A status leaves `DISCONNECTED` where an admin connects, reconnects, tests or
removes the channel.  A worker's success only clears `ERROR`, whatever row it
holds.

Two statements write `ERROR` without a look at the stored status: a worker's
failure, which looks at the row it holds, and a test.  What they do to a channel
that is `DISCONNECTED` is left open here (`overwrites`).
-/

namespace Vynor.Channels

open Lib

/-- The stored status of a channel. -/
def statusOf (t : ProviderAccounts) (id : Id) : Option ProviderAccountStatus :=
  (t.find? (.id id)).map Channel.status

/-! ## What the statements do to a status -/

theorem statusOf_update {t t' : ProviderAccounts} {id : Id} {data : ChannelData}
    (h : update t id data = some t') (id' : Id) :
    statusOf t' id' = if id' = id then some data.status else statusOf t id' := by
  unfold update at h
  split at h
  · cases h
  · next c hc =>
      cases h
      rw [statusOf, Table.find?_updateMany, statusOf]
      by_cases hid : id' = id
      · have hmem : c.id = id := Channel.id_mem_keys.mp (Table.find?_eq_some.mp hc).2
        rw [if_pos hid, hid, hc]
        simp [hmem, ChannelData.set]
      · rw [if_neg hid]
        cases hfind : t.find? (.id id') with
        | none => rfl
        | some c' =>
            have hmem : c'.id = id' := Channel.id_mem_keys.mp (Table.find?_eq_some.mp hfind).2
            have hne : c'.id ≠ id := fun heq => hid (hmem.symm.trans heq)
            simp [hne]

/-- A status that an update changes is that of its row. -/
theorem eq_of_update {t t' : ProviderAccounts} {id id' : Id} {data : ChannelData}
    (h : update t id data = some t') (hne : statusOf t' id' ≠ statusOf t id') : id' = id := by
  by_contra hid
  exact hne ((statusOf_update h id').trans (if_neg hid))

/-- A success leaves every status that is not `ERROR`. -/
theorem statusOf_recordSuccess {t : ProviderAccounts} {id : Id} {status : ProviderAccountStatus}
    (channel : Channel) (h : statusOf t id = some status) (hstatus : status ≠ .error) :
    statusOf (recordSuccess t channel) id = some status := by
  unfold recordSuccess
  split
  · exact h
  · obtain ⟨c, hc, rfl⟩ := Option.map_eq_some_iff.mp h
    rw [statusOf, Table.find?_updateMany, hc]
    simp [hstatus]

/-- A failure leaves the statuses of other channels, and writes the status of
its error on its own unless the row it holds is `DISCONNECTED`. -/
theorem statusOf_recordFailure {t t' : ProviderAccounts} {channel : Channel}
    {error : Delivery.ChannelProviderError} {now : Date}
    (h : recordFailure t channel error now = some t') (id : Id) :
    statusOf t' id = statusOf t id ∨
      id = channel.id ∧ statusOf t' id = some (failureStatus error) ∧
        ¬ (channel.status = .disconnected ∧ failureStatus error = .error) := by
  simp only [recordFailure] at h
  split at h
  · cases h
    exact Or.inl rfl
  · next hnot =>
      rw [statusOf_update h]
      by_cases hid : id = channel.id
      · exact Or.inr ⟨hid, if_pos hid, hnot⟩
      · exact Or.inl (if_neg hid)

/-- An error that requires no reconnect is a plain warning. -/
theorem failureStatus_eq_error {error : Delivery.ChannelProviderError}
    (h : failureStatus error ≠ .disconnected) : failureStatus error = .error := by
  unfold failureStatus at h ⊢
  split
  · next hrequires =>
      rw [if_pos hrequires] at h
      exact absurd rfl h
  · rfl

theorem statusOf_test {t t' : ProviderAccounts} {row : Channel} {checkedAt : Date}
    {checked : Checked} (h : test t row checkedAt checked = some t') :
    ∃ ok status message, testResult checked = some (ok, status, message) ∧
      ∀ id, statusOf t' id = if id = row.id then some status else statusOf t id := by
  simp only [test, Option.bind_eq_bind, Option.bind_eq_some_iff] at h
  obtain ⟨⟨ok, status, message⟩, hresult, hupdate⟩ := h
  exact ⟨ok, status, message, hresult, statusOf_update hupdate⟩

/-- A test ends as `ACTIVE` where its health check says so. -/
theorem healthy_of_active {checked : Checked} {ok : Bool} {message : String}
    (h : testResult checked = some (ok, .active, message)) : ∃ m, checked = .health true m := by
  unfold testResult at h
  split at h
  · next isHealthy m =>
      cases isHealthy with
      | true => exact ⟨m, rfl⟩
      | false => cases h
  · next error =>
      unfold failureStatus at h
      split at h <;> cases h
  · cases h
  · cases h

/-- No test ends as `INACTIVE`. -/
theorem testResult_ne_inactive {checked : Checked} {ok : Bool} {status : ProviderAccountStatus}
    {message : String} (h : testResult checked = some (ok, status, message)) :
    status ≠ .inactive := by
  rintro rfl
  unfold testResult at h
  split at h
  · next isHealthy m =>
      cases isHealthy with
      | true => cases h
      | false => cases h
  · next error =>
      unfold failureStatus at h
      split at h <;> cases h
  · cases h
  · cases h

/-- A creation leaves every other channel. -/
theorem statusOf_create {t t' : ProviderAccounts} {creation : Creation} {generatedId : Id}
    {now : Date} (h : create t creation generatedId now = some t') {id : Id}
    {status : ProviderAccountStatus} (hstatus : statusOf t id = some status) :
    statusOf t' id = some status ∨ creation.existing.map Channel.id = some id := by
  unfold create at h
  split at h
  · next existing hexisting =>
      rw [statusOf_update h]
      by_cases hid : id = existing.id
      · exact Or.inr (by rw [hexisting, Option.map_some, hid])
      · rw [if_neg hid]
        exact Or.inl hstatus
  · obtain ⟨c, hc, rfl⟩ := Option.map_eq_some_iff.mp hstatus
    rw [statusOf, Table.find?_of_insert?_of_some h hc]
    exact Or.inl rfl

/-! ## Leaving DISCONNECTED -/

/-- The call of an action. -/
def Action.call : Action → CallId
  | .readChannel i _ => i
  | .recordFailure i _ _ => i
  | .recordSuccess i => i
  | .startTest i _ _ _ => i
  | .finishTest i _ => i
  | .startCreate i _ _ _ _ => i
  | .finishCreate i _ _ => i
  | .startReconnect i _ _ _ _ => i
  | .finishReconnect i _ => i
  | .startRemove i _ _ => i
  | .finishRemove i _ => i
  | .fail i => i

/-- The transactions of `create`, of `reconnect`, and of a test whose health
check succeeded as healthy. -/
def Action.reconnects : Action → Bool
  | .finishCreate _ _ _ => true
  | .finishReconnect _ _ => true
  | .finishTest _ (.health true _) => true
  | _ => false

/-- The transaction of `remove`. -/
def Action.removes : Action → Bool
  | .finishRemove _ _ => true
  | _ => false

/-- The action is one of a call on this channel. -/
def OnChannel (w : World) (a : Action) (id : Id) : Prop :=
  (w.call a.call).channel?.map Channel.id = some id

/-- A step takes a status away from `DISCONNECTED` only where such an action of
a call on the channel does. -/
def LeavesThrough (through : Action → Bool) (w : World) (a : Action) (w' : World) : Prop :=
  ∀ id, statusOf w.channels id = some .disconnected →
    statusOf w'.channels id ≠ some .disconnected → through a = true ∧ OnChannel w a id

/-- A plain warning over `DISCONNECTED`: by a worker whose row was read when the
channel was not `DISCONNECTED`, or by a test. -/
def overwrites (w : World) : Action → Bool
  | .recordFailure i error _ =>
      match w.call i with
      | .holding channel =>
          channel.status ≠ .disconnected && failureStatus error = .error &&
            statusOf w.channels channel.id = some .disconnected
      | _ => false
  | .finishTest i checked =>
      match w.call i, testResult checked with
      | .testing row _, some (_, .error, _) => statusOf w.channels row.id = some .disconnected
      | _, _ => false
  | _ => false

theorem channels_startCall {w w' : World} {i : CallId} {row : Option Channel}
    {next : Channel → Call} (h : startCall w i row next = some w') : w'.channels = w.channels := by
  unfold startCall at h
  split at h
  · obtain ⟨c, _, rfl⟩ := Option.map_eq_some_iff.mp h
    rfl
  · cases h

theorem leavesThrough_step {w w' : World} {a : Action} (hs : step w a = some w')
    (hnot : overwrites w a = false) :
    LeavesThrough (fun a => a.reconnects || a.removes) w a w' := by
  intro id hbefore hafter
  have hkept : ∀ {P : Prop}, w'.channels = w.channels → P := fun heq =>
    absurd (heq ▸ hbefore) hafter
  cases a with
  | readChannel i id' =>
      simp only [step] at hs
      split at hs
      · obtain ⟨c, _, rfl⟩ := Option.map_eq_some_iff.mp hs
        exact hkept rfl
      · obtain ⟨c, _, rfl⟩ := Option.map_eq_some_iff.mp hs
        exact hkept rfl
      · cases hs
  | recordFailure i error now =>
      simp only [step] at hs
      split at hs
      · next channel hcall =>
          obtain ⟨t, hfailure, rfl⟩ := Option.map_eq_some_iff.mp hs
          rcases statusOf_recordFailure hfailure id with hsame | ⟨rfl, hnew, hwarned⟩
          · exact absurd (hsame.trans hbefore) hafter
          · have herror : failureStatus error = .error :=
              failureStatus_eq_error fun hdisconnected =>
                hafter (hnew.trans (congrArg some hdisconnected))
            have hheld : channel.status ≠ .disconnected := fun h => hwarned ⟨h, herror⟩
            simp [overwrites, hcall, hheld, herror, hbefore] at hnot
      · cases hs
  | recordSuccess i =>
      simp only [step] at hs
      split at hs
      · next channel hcall =>
          cases hs
          have hsuccess := statusOf_recordSuccess channel hbefore fun h => by cases h
          exact absurd hsuccess hafter
      · cases hs
  | startTest i workspaceId id' checkedAt => exact hkept (channels_startCall hs)
  | finishTest i checked =>
      simp only [step] at hs
      split at hs
      · next row checkedAt hcall =>
          obtain ⟨t, htest, rfl⟩ := Option.map_eq_some_iff.mp hs
          obtain ⟨ok, status, message, hresult, hstatus⟩ := statusOf_test htest
          have hafter' : statusOf t id ≠ some .disconnected := hafter
          rw [hstatus] at hafter'
          by_cases hid : id = row.id
          · rw [if_pos hid] at hafter'
            have hon : OnChannel w (.finishTest i checked) id := by
              simp [OnChannel, Action.call, hcall, Call.channel?, hid]
            cases status with
            | active =>
                obtain ⟨m, rfl⟩ := healthy_of_active hresult
                exact ⟨rfl, hon⟩
            | inactive => exact absurd rfl (testResult_ne_inactive hresult)
            | disconnected => exact absurd rfl hafter'
            | error =>
                rw [hid] at hbefore
                simp [overwrites, hcall, hresult, hbefore] at hnot
          · rw [if_neg hid] at hafter'
            exact absurd hbefore hafter'
      · cases hs
  | startCreate i workspaceId request verified secretToken =>
      simp only [step] at hs
      split at hs
      · obtain ⟨creation, _, rfl⟩ := Option.map_eq_some_iff.mp hs
        exact hkept rfl
      · cases hs
  | finishCreate i generatedId now =>
      simp only [step] at hs
      split at hs
      · next creation hcall =>
          obtain ⟨t, hcreate, rfl⟩ := Option.map_eq_some_iff.mp hs
          rcases statusOf_create hcreate hbefore with hsame | hexisting
          · exact absurd hsame hafter
          · refine ⟨rfl, ?_⟩
            rw [OnChannel, Action.call, hcall]
            exact hexisting
      · cases hs
  | startReconnect i workspaceId id' request verified => exact hkept (channels_startCall hs)
  | finishReconnect i now =>
      simp only [step] at hs
      split at hs
      · next row verified hcall =>
          obtain ⟨t, hreconnect, rfl⟩ := Option.map_eq_some_iff.mp hs
          have hid : id = row.id := eq_of_update hreconnect (hbefore ▸ hafter)
          refine ⟨rfl, ?_⟩
          rw [OnChannel, Action.call, hcall, Call.channel?, Option.map_some, hid]
      · cases hs
  | startRemove i workspaceId id' => exact hkept (channels_startCall hs)
  | finishRemove i now =>
      simp only [step] at hs
      split at hs
      · next row hcall =>
          obtain ⟨t, hremove, rfl⟩ := Option.map_eq_some_iff.mp hs
          have hid : id = row.id := eq_of_update hremove (hbefore ▸ hafter)
          refine ⟨rfl, ?_⟩
          rw [OnChannel, Action.call, hcall, Call.channel?, Option.map_some, hid]
      · cases hs
  | fail i =>
      cases hs
      exact hkept rfl

/-- In a run without plain warnings over `DISCONNECTED`, a status leaves it only
through `create`, `reconnect`, `remove`, or a test whose health check succeeded
as healthy, of a call on the channel. -/
theorem along_leavesThrough {w : World} {as : List Action}
    (h : machine.Along (fun w a _ => overwrites w a = false) w as) :
    machine.Along (LeavesThrough fun a => a.reconnects || a.removes) w as :=
  Machine.along_of_along (I := fun _ => True)
    (fun _ _ _ _ hs hnot => ⟨trivial, leavesThrough_step hs hnot⟩) trivial h

/-- So it stays as long as no such call on the channel writes. -/
theorem disconnected_of_run {w w' : World} {as : List Action} {id : Id}
    (hstatus : statusOf w.channels id = some .disconnected)
    (h : machine.Along (fun w a _ => overwrites w a = false ∧
      ((a.reconnects || a.removes) = true → ¬ OnChannel w a id)) w as)
    (hrun : machine.run w as = some w') : statusOf w'.channels id = some .disconnected := by
  refine Machine.invariant_along (I := fun w => statusOf w.channels id = some .disconnected)
    (fun w1 a w2 hbefore hs hstep => ?_) hstatus h hrun
  by_contra hafter
  obtain ⟨hthrough, hon⟩ := leavesThrough_step hs hstep.1 id hbefore hafter
  exact hstep.2 hthrough hon

/-! ## A rejected token -/

def exampleChannel : Channel where
  id := "channel"
  workspaceId := "workspace"
  channelType := .telegram
  provider := .telegramBot
  name := "Support"
  accountIdentifier := "bot"

/-- One connected channel, and no calls. -/
def World.example : World where
  channels := ⟨[exampleChannel], List.pairwise_singleton _ _⟩
  call := fun _ => .idle

def exampleError (category : Delivery.ProviderErrorCategory) : Delivery.ChannelProviderError where
  provider := .telegramBot
  category := category
  code := "401"
  message := "Unauthorized"

/-- A worker finds that the token is rejected and reads the row again.  Its next
failure and its next success leave the channel alone, and so does a test that
finds the token rejected too. -/
def rejectedToken : List Action :=
  [.readChannel 0 "channel", .recordFailure 0 (exampleError .authentication) 0,
    .readChannel 0 "channel", .recordFailure 0 (exampleError .transient) 1, .recordSuccess 0,
    .startTest 1 "workspace" "channel" 2,
    .finishTest 1 (.thrown (.provider (exampleError .permission))),
    .startTest 2 "workspace" "channel" 3, .finishTest 2 (.health true "Connected.")]

/-- The theorem at that run, which a healthy test ends. -/
theorem along_leavesThrough_rejectedToken :
    machine.Along (LeavesThrough fun a => a.reconnects || a.removes) World.example rejectedToken ∧
      (machine.run World.example rejectedToken).map (fun w => statusOf w.channels "channel") =
        some (some .active) := by
  have hchecks : machine.checks (fun w a => !overwrites w a) World.example rejectedToken = true := by
    decide
  refine ⟨along_leavesThrough ?_, by decide⟩
  exact Machine.along_of_checks (fun w a _ h => by simpa using h) hchecks

/-- The same worker, and an admin who removes the channel. -/
def removedWhileDisconnected : List Action :=
  [.readChannel 0 "channel", .recordFailure 0 (exampleError .authentication) 0,
    .startRemove 1 "workspace" "channel"]

/-- A removed channel is `INACTIVE`, also where it was `DISCONNECTED`. -/
theorem not_along_leavesThrough_reconnects :
    ∃ as, ¬ machine.Along (LeavesThrough Action.reconnects) World.example as := by
  have hlast : ((machine.run World.example removedWhileDisconnected).bind fun w =>
      (machine.step w (.finishRemove 1 5)).map fun w' =>
        (statusOf w.channels "channel", statusOf w'.channels "channel")) =
      some (some .disconnected, some .inactive) := by
    decide
  obtain ⟨w, w', hw, hw', hview⟩ := Machine.exists_last hlast
  simp only [Prod.mk.injEq] at hview
  refine ⟨removedWhileDisconnected ++ [.finishRemove 1 5], ?_⟩
  intro hall
  have hafter : statusOf w'.channels "channel" ≠ some .disconnected := by
    rw [hview.2]
    exact fun h => by cases h
  exact Bool.false_ne_true (hall.last hw hw' "channel" hview.1 hafter).1

end Vynor.Channels
