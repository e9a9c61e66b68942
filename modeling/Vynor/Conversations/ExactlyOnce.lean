import Vynor.Conversations.Commits

/-!
# Exactly-once ingest

However the calls for one provider message overlap, fail and repeat, at most
one of them stores it, and every call that resolves names the stored row.

The unique index decides which commit wins.  A call that sees the row first, or
loses at its commit and looks again, reports a duplicate.  So the calls that
resolve with `duplicate = false` are the calls that inserted the row, and the
invariant below is that there is exactly one of them as soon as the row is
there.
-/

namespace Vynor.Conversations

open Lib (Table Machine)

/-! ## How an ingest ends -/

/-- The call commits an ingest in this step. -/
structure Inserts (w w' : World) (a : Action) (i : CallId) (request : IngestRequest)
    (result : IngestResult) : Prop where
  committed : ∃ c, a.call = i ∧ Committed w a w'.db (.ingested c request.messageId) ∧
    result.conversationId = c
  free : w.db.messages.find? request.key = none
  stored : ∃ m, w'.db.messages.find? request.key = some m ∧ m.id = result.messageId ∧
    m.conversationId = result.conversationId
  fresh : result.duplicate = false
  ends : w'.call i = .ingested request result

/-- The key of an inserted message. -/
theorem key_mem_newMessage (tx : IngestTx) (conversationId : Id) (replyTo : Option Id) :
    tx.request.key ∈ (newMessage tx conversationId replyTo).keys := by
  simp [IngestRequest.key, newMessage]

theorem writing_of_commitIngest {w w' : World} {i : CallId} {conversationId : Id}
    {createdAt : Date} {assignee : Option Id}
    (h : step w (.commitIngest i conversationId createdAt assignee) = some w') :
    ∃ tx read replyTo, w.call i = .writing tx read replyTo := by
  simp only [step, stepCommitIngest] at h
  split at h
  · exact ⟨_, _, _, ‹_›⟩
  · cases h

/-- The commit of an ingest inserts the message, or meets a key that is taken
and writes nothing. -/
theorem inserts_of_commitIngest {w w' : World} {i : CallId} {conversationId : Id} {createdAt : Date}
    {assignee : Option Id} {tx : IngestTx} {read : Option Conversation} {replyTo : Option Id}
    (h : step w (.commitIngest i conversationId createdAt assignee) = some w')
    (hcall : w.call i = .writing tx read replyTo) :
    (w'.db = w.db ∧ w'.call i = .violated tx.request) ∨
      ∃ result, Inserts w w' (.commitIngest i conversationId createdAt assignee) i tx.request
        result := by
  simp only [step, stepCommitIngest, hcall] at h
  split at h
  next db result hdb =>
    cases h
    obtain ⟨c, t, hin⟩ := ingested_of_eq_some hdb
    have hmem := key_mem_newMessage tx c.id replyTo
    refine Or.inr ⟨result, ⟨c.id, rfl, .ingest hcall hin, by rw [hin.result]⟩, ?_, ?_, ?_,
      World.setCall_self w i _⟩
    · exact Table.free_iff_find?_eq_none.mp (Table.insert?_eq_some.mp hin.inserted).1 _ hmem
    · refine ⟨newMessage tx c.id replyTo, ?_, by rw [hin.result]; rfl, by rw [hin.result]; rfl⟩
      exact (Table.find?_of_insert? hin.inserted _).trans (if_pos hmem)
    · rw [hin.result]
  · cases h
    exact Or.inl ⟨rfl, World.setCall_self w i _⟩

/-- A call that has resolved as an ingest had resolved before, found a stored
copy, or commits in this step. -/
theorem step_ingested {w w' : World} {a : Action} {j : CallId} {request : IngestRequest}
    {result : IngestResult} (h : step w a = some w') (hj : w'.call j = .ingested request result) :
    w.call j = .ingested request result ∨
      (w'.db = w.db ∧ findDuplicate w.db.messages request = some result) ∨
      Inserts w w' a j request result := by
  rcases call_of_step (· = .ingested request result) h hj with hold | ⟨rfl, c, hmoved, rfl⟩
  · exact Or.inl hold
  · cases hmoved with
    | finds _ hfound | lookAgain _ hfound =>
        refine Or.inr (Or.inl ⟨?_, hfound⟩)
        rcases step_cases h with ⟨hdb, _⟩ | ⟨_, _, hcommit⟩
        · exact hdb
        · cases hcommit
    | commitIngest hcall =>
        rcases inserts_of_commitIngest h hcall with ⟨_, hviolated⟩ | ⟨result', hins⟩
        · cases hviolated.symm.trans hj
        · cases hins.ends.symm.trans hj
          exact Or.inr (Or.inr hins)

/-- A message that is new under a provider key was inserted by an ingest. -/
theorem inserts_of_new {w w' : World} {a : Action} {account : Id} {providerId : String}
    {m : Message} (h : step w a = some w')
    (hnone : w.db.messages.find? (.provider account providerId) = none)
    (hm : w'.db.messages.find? (.provider account providerId) = some m) :
    ∃ i request result, Inserts w w' a i request result ∧
      request.key = .provider account providerId := by
  rcases step_cases h with ⟨hdb, _⟩ | ⟨e, _, hc⟩
  · rw [hdb, hnone] at hm
    cases hm
  · obtain ⟨added, hrows, hadded⟩ := hc.messages
    rcases Table.find?_of_append hrows hm with hold | ⟨hmem, hkey⟩
    · rw [hnone] at hold
      cases hold
    · rw [Message.provider_mem_keys] at hkey
      cases hadded with
      | @ingest i conversationId c createdAt assignee tx read replyTo hcall =>
          rw [List.mem_singleton] at hmem
          subst hmem
          rcases inserts_of_commitIngest h hcall with ⟨hdb, _⟩ | ⟨result, hins⟩
          · rw [hdb, hnone] at hm
            cases hm
          · refine ⟨i, tx.request, result, hins, ?_⟩
            obtain ⟨haccount, hprovider⟩ := hkey
            simp only [newMessage, Option.some.injEq] at haccount hprovider
            rw [IngestRequest.key, haccount, hprovider]
      | send hcall =>
          rw [List.mem_singleton] at hmem
          subst hmem
          cases hkey.2
      | markRead => cases hmem
      | update =>
          obtain ⟨entry, _, rfl⟩ := List.mem_map.mp hmem
          cases hkey.2

/-! ## One row, one call that stored it -/

theorem findDuplicate_eq_some {t : Messages} {request : IngestRequest} {result : IngestResult}
    (h : findDuplicate t request = some result) :
    ∃ m, t.find? request.key = some m ∧ m.id = result.messageId ∧
      m.conversationId = result.conversationId ∧ result.duplicate = true := by
  obtain ⟨m, hm, rfl⟩ := Option.map_eq_some_iff.mp h
  exact ⟨m, hm, rfl, rfl, rfl⟩

/-- The call has resolved and reports that it stored the message of a key. -/
def Stored (k : MessageKey) (w : World) (i : CallId) : Prop :=
  ∃ request result, w.call i = .ingested request result ∧ request.key = k ∧ result.duplicate = false

/-- The calls that have resolved for a key name its row, and one of them stored
it. -/
structure Once (k : MessageKey) (w : World) : Prop where
  named : ∀ i request result, w.call i = .ingested request result → request.key = k →
    ∃ m, w.db.messages.find? k = some m ∧ m.id = result.messageId ∧
      m.conversationId = result.conversationId
  storer : ∀ m, w.db.messages.find? k = some m → ∃! i, Stored k w i

theorem once_step {w w' : World} {a : Action} {account : Id} {providerId : String}
    (ho : Once (.provider account providerId) w) (h : step w a = some w') :
    Once (.provider account providerId) w' where
  named i request result hi hk := by
    rcases step_ingested h hi with hold | ⟨hdb, hfound⟩ | hins
    · obtain ⟨m, hm, hid, hc⟩ := ho.named i request result hold hk
      exact ⟨m, message_kept h hm, hid, hc⟩
    · obtain ⟨m, hm, hid, hc, _⟩ := findDuplicate_eq_some hfound
      rw [hdb, ← hk]
      exact ⟨m, hm, hid, hc⟩
    · rw [← hk]
      exact hins.stored
  storer m hm := by
    cases hbefore : w.db.messages.find? (.provider account providerId) with
    | none =>
        obtain ⟨i, request, result, hins, hk⟩ := inserts_of_new h hbefore hm
        refine ⟨i, ⟨request, result, hins.ends, hk, hins.fresh⟩, ?_⟩
        rintro j ⟨request', result', hj, hk', hfresh⟩
        rcases step_ingested h hj with hold | ⟨_, hfound⟩ | hins'
        · obtain ⟨m', hm', _⟩ := ho.named j request' result' hold hk'
          rw [hbefore] at hm'
          cases hm'
        · obtain ⟨_, _, _, _, hdup⟩ := findDuplicate_eq_some hfound
          rw [hdup] at hfresh
          cases hfresh
        · obtain ⟨_, hi, _⟩ := hins.committed
          obtain ⟨_, hj', _⟩ := hins'.committed
          exact hj'.symm.trans hi
    | some m' =>
        obtain ⟨i, ⟨request, result, hi, hk, hfresh⟩, huniq⟩ := ho.storer m' hbefore
        refine ⟨i, ⟨request, result, ?_, hk, hfresh⟩, ?_⟩
        · rw [step_ended h (by rw [hi]; rfl), hi]
        · rintro j ⟨request', result', hj, hk', hfresh'⟩
          rcases step_ingested h hj with hold | ⟨_, hfound⟩ | hins
          · exact huniq j ⟨request', result', hold, hk', hfresh'⟩
          · obtain ⟨_, _, _, _, hdup⟩ := findDuplicate_eq_some hfound
            rw [hdup] at hfresh'
            cases hfresh'
          · have hfree := hins.free
            rw [hk', hbefore] at hfree
            cases hfree

/-! ## The unread counter -/

/-- The entry is an ingest into the conversation. -/
def Entry.ingests (c : Id) : Entry → Bool
  | .ingested c' _ => c' = c
  | _ => false

/-- The entry resets the counter of the conversation. -/
def Entry.resets (c : Id) : Entry → Bool
  | .sent c' _ _ isPrivate => c' = c && !isPrivate
  | .markedRead c' => c' = c
  | _ => false

/-- The messages ingested into the conversation since its last reset. -/
def ingestedSinceReset (c : Id) (log : List Entry) : Nat :=
  (log.takeWhile fun e => !e.resets c).countP (·.ingests c)

/-- What is left of the count a conversation started with. -/
def carried (c : Id) (start : Nat) (log : List Entry) : Nat :=
  if log.any (·.resets c) then 0 else start

/-- The counter of a conversation, or 0 while there is none. -/
def World.unreadCount (w : World) (c : Id) : Nat :=
  ((w.db.conversations.find? c).map Conversation.unreadCount).getD 0

/-- How one more entry changes the expected count. -/
theorem expected_cons (c : Id) (start : Nat) (e : Entry) (log : List Entry) :
    carried c start (e :: log) + ingestedSinceReset c (e :: log) =
      if e.resets c then 0
      else if e.ingests c then carried c start log + ingestedSinceReset c log + 1
      else carried c start log + ingestedSinceReset c log := by
  by_cases hr : e.resets c = true
  · simp [carried, ingestedSinceReset, hr]
  · by_cases hi : e.ingests c = true
    · simp [carried, ingestedSinceReset, hr, hi]
      omega
    · simp [carried, ingestedSinceReset, hr, hi]

/-- A commit changes the counter of a conversation as its entry says. -/
theorem unreadCount_commit {w w' : World} {a : Action} {e : Entry} (h : Committed w a w'.db e)
    (c : Id) :
    w'.unreadCount c =
      if e.resets c then 0 else if e.ingests c then w.unreadCount c + 1 else w.unreadCount c := by
  cases hr : w.db.conversations.find? c with
  | some r =>
      have hid := Conversation.id_of_find? hr
      obtain ⟨r', hr', hchange⟩ := h.row hr
      simp only [World.unreadCount, hr, hr', Option.map_some, Option.getD_some]
      cases hchange with
      | other hne =>
          rw [hid] at hne
          cases e <;> simp_all [Entry.resets, Entry.ingests, Entry.conversationId]
      | ingest => simp [Entry.resets, Entry.ingests, hid, counted]
      | note => simp [Entry.resets, Entry.ingests]
      | send => simp [Entry.resets, hid, answered]
      | markRead => simp [Entry.resets, hid, markedRead]
      | update => simp [Entry.resets, Entry.ingests, changed]
  | none =>
      cases hr' : w'.db.conversations.find? c with
      | some r' =>
          obtain ⟨_, _, _, _, _, _, _, _, rfl, rfl⟩ := h.new_row hr hr'
          simp [World.unreadCount, hr, hr', Entry.resets, Entry.ingests, counted, newConversation]
      | none =>
          have hno : e.ingests c = false := by
            cases e with
            | ingested c' messageId =>
                by_cases hc : c' = c
                · subst hc
                  obtain ⟨r, hr1⟩ := h.exists_of_ingested
                  rw [hr'] at hr1
                  cases hr1
                · simpa [Entry.ingests] using hc
            | _ => rfl
          simp [World.unreadCount, hr, hr', hno]

/-- The counter of every conversation is what its history says. -/
def Counted (start : Id → Nat) (w : World) : Prop :=
  ∀ c, w.unreadCount c = carried c (start c) w.log + ingestedSinceReset c w.log

theorem counted_step {start : Id → Nat} {w w' : World} {a : Action} (hc : Counted start w)
    (h : step w a = some w') : Counted start w' := by
  intro c
  rcases step_cases h with ⟨hdb, hlog⟩ | ⟨e, hlog, hcommit⟩
  · rw [World.unreadCount, hdb, hlog]
    exact hc c
  · rw [unreadCount_commit hcommit, hlog, expected_cons, hc c]

/-! ## Calls that reject -/

/-- A step that writes resolves its call. -/
theorem resolved_of_write {w w' : World} {a : Action} (h : step w a = some w') :
    w'.db = w.db ∨ (w'.call a.call).ended = true ∧ w'.call a.call ≠ .threw := by
  cases a with
  | commitIngest i conversationId createdAt assignee =>
      obtain ⟨tx, read, replyTo, hcall⟩ := writing_of_commitIngest h
      rcases inserts_of_commitIngest h hcall with ⟨hdb, _⟩ | ⟨result, hins⟩
      · exact Or.inl hdb
      · right
        simp only [Action.call]
        rw [hins.ends]
        exact ⟨rfl, by simp⟩
  | commitMarkRead i =>
      simp only [step] at h
      split at h
      · obtain ⟨db, _, rfl⟩ := Option.map_eq_some_iff.mp h
        exact Or.inr (by simp [Action.call, Call.ended])
      · cases h
  | commitSend i createdAt =>
      simp only [step] at h
      split at h
      · obtain ⟨db, _, rfl⟩ := Option.map_eq_some_iff.mp h
        exact Or.inr (by simp [Action.call, Call.ended])
      · cases h
  | commitUpdate i ids createdAt =>
      simp only [step] at h
      split at h
      · split at h
        · obtain ⟨db, _, rfl⟩ := Option.map_eq_some_iff.mp h
          exact Or.inr (by simp [Action.call, Call.ended])
        · cases h
      · cases h
  | _ =>
      rcases step_cases h with ⟨hdb, _⟩ | ⟨e, _, hc⟩
      · exact Or.inl hdb
      · cases hc

/-- A call that has ended stays as it is. -/
theorem run_ended {w w' : World} {as : List Action} {j : CallId} (h : machine.run w as = some w')
    (hj : (w.call j).ended = true) : w'.call j = w.call j := by
  refine Machine.invariant (M := machine) (I := fun s => s.call j = w.call j)
    (fun s a s' hs hstep => ?_) rfl h
  rw [step_ended hstep (by rw [hs]; exact hj), hs]

/-! ## The whole run -/

/-- No call is under way, nothing is logged, and no message has the key. -/
structure Start (k : MessageKey) (w : World) : Prop where
  idle : ∀ i, w.call i = .idle
  log : w.log = []
  free : w.db.messages.find? k = none

/-- What holds after any run of the system, for one provider message: there is
at most one row, the calls that resolved name it, exactly one of them stored it,
every unread counter is the number of messages ingested since the last reset,
and a call that rejected has written nothing. -/
structure ExactlyOnce (account : Id) (providerId : String) (w₀ : World) (as : List Action)
    (w : World) : Prop where
  atMostOne : w.db.messages.rows.countP (fun m => .provider account providerId ∈ m.keys) ≤ 1
  named : ∀ i request result, w.call i = .ingested request result →
    request.key = .provider account providerId →
    ∃ m, w.db.messages.find? (.provider account providerId) = some m ∧ m.id = result.messageId ∧
      m.conversationId = result.conversationId
  storedOnce : (∃ i request result, w.call i = .ingested request result ∧
    request.key = .provider account providerId) → ∃! i, Stored (.provider account providerId) w i
  unread : ∀ c r, w.db.conversations.find? c = some r →
    r.unreadCount = carried c (w₀.unreadCount c) w.log + ingestedSinceReset c w.log
  rejected : ∀ pre a post w₁ w₂, as = pre ++ a :: post → machine.run w₀ pre = some w₁ →
    step w₁ a = some w₂ → w.call a.call = .threw → w₂.db = w₁.db

/-- Ingest is exactly once, along every run from a database without the
message. -/
theorem ingest_exactlyOnce {w₀ w : World} {as : List Action} {account : Id} {providerId : String}
    (hstart : Start (.provider account providerId) w₀) (hrun : machine.run w₀ as = some w) :
    ExactlyOnce account providerId w₀ as w := by
  have honce : Once (.provider account providerId) w := by
    refine Machine.invariant (I := Once (.provider account providerId))
      (fun _ _ _ ho hs => once_step ho hs) ⟨?_, ?_⟩ hrun
    · intro i request result hi
      rw [hstart.idle i] at hi
      cases hi
    · intro m hm
      rw [hstart.free] at hm
      cases hm
  have hcounted : Counted w₀.unreadCount w := by
    refine Machine.invariant (I := Counted w₀.unreadCount)
      (fun _ _ _ hc hs => counted_step hc hs) (fun c => ?_) hrun
    rw [hstart.log]
    simp [carried, ingestedSinceReset]
  refine ⟨Table.countP_key_le_one _ _, honce.named, ?_, ?_, ?_⟩
  · rintro ⟨i, request, result, hi, hk⟩
    obtain ⟨m, hm, _⟩ := honce.named i request result hi hk
    exact honce.storer m hm
  · intro c r hr
    have hc := hcounted c
    rw [World.unreadCount, hr] at hc
    exact hc
  · rintro pre a post w₁ w₂ rfl hpre hstep hthrew
    obtain ⟨w₁', hpre', hrest⟩ := (machine.run_append_eq_some).mp hrun
    rw [hpre] at hpre'
    cases hpre'
    obtain ⟨w₂', hstep', hpost⟩ := (machine.run_cons_eq_some).mp hrest
    rw [machine_step, hstep] at hstep'
    cases hstep'
    rcases resolved_of_write hstep with hdb | ⟨hended, hne⟩
    · exact hdb
    · rw [run_ended hpost hended] at hthrew
      exact absurd hthrew hne

/-! ## A message that is delivered twice -/

/-- Two jobs ingest one message.  The second looks for a stored copy before the
first commits, and meets its key at the commit. -/
def twiceRun : List Action :=
  [.ingest 1 (exampleRequest "e2" "p1" 1)] ++
    exampleIngest 0 (exampleRequest "e1" "p1" 1) "c" 2 [] ++
    (exampleIngest 1 (exampleRequest "e2" "p1" 1) "c2" 3 [exampleConversation]).tail ++
    [.lookAgain 1]

/-- The theorem at that run: the second call reports the row of the first. -/
theorem exactlyOnce_twiceRun :
    ∃ w, machine.run World.init twiceRun = some w ∧
      ExactlyOnce "channel" "p1" World.init twiceRun w ∧
      w.call 1 = .ingested (exampleRequest "e2" "p1" 1) ⟨"e1", "c", true, false⟩ := by
  have hlast : (machine.run World.init twiceRun).map (fun w => w.call 1)
      = some (.ingested (exampleRequest "e2" "p1" 1) ⟨"e1", "c", true, false⟩) := by decide
  obtain ⟨w, hw, hcall⟩ := Option.map_eq_some_iff.mp hlast
  exact ⟨w, hw, ingest_exactlyOnce ⟨fun _ => rfl, rfl, by decide⟩ hw, hcall⟩

end Vynor.Conversations
