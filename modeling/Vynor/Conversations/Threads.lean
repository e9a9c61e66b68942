import Vynor.Conversations.Chats

/-!
# One conversation for a thread

An email thread is looked up by its whole id and stored under the first 512 code
units of it, and the lock is the one of the sender.  So a long thread id is never
found again, and two senders of one thread can both find nothing and start a
conversation each.
-/

namespace Vynor.Conversations

open Lib (Table Machine)

/-- The thread a message names. -/
def IngestRequest.thread? (request : IngestRequest) : Option String := truthy request.message.threadId

/-- A message in a thread that does not reply to another one. -/
structure IngestRequest.Opens (request : IngestRequest) (channelId : Id) (threadId : String) :
    Prop where
  channel : request.channel.id = channelId
  thread : request.thread? = some threadId
  noReply : request.message.replyTarget = none

/-- Wherever a transaction starts a conversation for a thread, the thread id fits
its column, and no conversation of the thread has been committed by then. -/
def NotOvertaken (w : World) (a : Action) (_ : World) : Prop :=
  ∀ i conversationId createdAt assignee tx replyTo threadId,
    a = .commitIngest i conversationId createdAt assignee → w.call i = .writing tx none replyTo →
    tx.request.thread? = some threadId →
    (codeUnits threadId).length ≤ 512 ∧
      ∀ c ∈ w.db.conversations.rows, inThread tx.request.channel.id threadId c = false

/-- No thread has two conversations, and the messages that open a thread are in one. -/
structure OneThread (w : World) : Prop where
  conversation : ∀ channelId threadId, w.db.conversations.count (inThread channelId threadId) ≤ 1
  messages : ∀ channelId threadId i j request request' result result',
    w.call i = .ingested request result → w.call j = .ingested request' result' →
    result.duplicate = false → result'.duplicate = false →
    request.Opens channelId threadId → request'.Opens channelId threadId →
    result.conversationId = result'.conversationId

/-- The conversation with this id is one of the thread. -/
def InThread (db : Db) (channelId : Id) (threadId : String) (id : Id) : Prop :=
  ∃ c ∈ db.conversations.rows, c.id = id ∧ inThread channelId threadId c = true

structure Threaded (w : World) : Prop where
  one : ∀ channelId threadId, ∀ a ∈ w.db.conversations.rows, ∀ b ∈ w.db.conversations.rows,
    inThread channelId threadId a = true → inThread channelId threadId b = true → a.id = b.id
  follows : ∀ i tx, (∃ target, w.call i = .threading tx target) ∨
    (∃ id, w.call i = .targeted tx id) → tx.request.message.replyTarget.isSome = true
  read : ∀ i tx c channelId threadId, (w.call i).chat? = some (tx, some c) →
    tx.request.Opens channelId threadId → InThread w.db channelId threadId c.id
  stored : ∀ i request result channelId threadId, w.call i = .ingested request result →
    result.duplicate = false → request.Opens channelId threadId →
    InThread w.db channelId threadId result.conversationId

theorem inThread_iff {channelId : Id} {threadId : String} {c : Conversation} :
    inThread channelId threadId c = true ↔
      c.providerAccountId = channelId ∧ c.externalThreadId = some (codeUnits threadId) := by
  simp [inThread]

theorem SameThread.inThread_iff {c c' : Conversation} (h : SameThread c c') (channelId : Id)
    (threadId : String) :
    inThread channelId threadId c' = true ↔ inThread channelId threadId c = true := by
  rw [Conversations.inThread_iff, Conversations.inThread_iff, h.channel, h.thread]

/-- A conversation of a thread stays one. -/
theorem inThread_kept {w w' : World} {a : Action} (h : step w a = some w') {channelId : Id}
    {threadId : String} {id : Id} (hin : InThread w.db channelId threadId id) :
    InThread w'.db channelId threadId id := by
  obtain ⟨c, hc, rfl, hthread⟩ := hin
  obtain ⟨c', hc', hchange⟩ := conversation_kept h (Conversation.find?_of_mem hc)
  have hsame := sameThread_of_change hchange
  exact ⟨c', (Table.find?_eq_some.mp hc').1, hsame.id,
    (hsame.inThread_iff channelId threadId).mpr hthread⟩

/-! ## What a call has read -/

theorem readOpen_of_step {w w' : World} {i : CallId} {found : List Conversation}
    (h : step w (.readOpen i found) = some w') :
    ∃ tx, w.call i = .resolving tx ∧ tx.request.thread? = none ∧
      w' = w.setCall i (.resolved tx found.head?) := by
  simp only [step] at h
  split at h
  next tx hcall =>
    split at h
    next hread =>
      cases h
      exact ⟨tx, hcall, hread.1, rfl⟩
    · cases h
  · cases h

theorem readThread_of_step {w w' : World} {i : CallId} {found : List Conversation}
    (h : step w (.readThread i found) = some w') :
    ∃ tx threadId, w.call i = .resolving tx ∧ tx.request.thread? = some threadId ∧
      w.db.conversations.Selects (inThread tx.request.channel.id threadId) newestFirst 1 found ∧
      w' = w.setCall i (afterThread tx found) := by
  simp only [step] at h
  split at h
  next tx hcall =>
    split at h
    · cases h
    next threadId hthread =>
      split at h
      next hfound =>
        cases h
        exact ⟨tx, threadId, hcall, hthread, hfound, rfl⟩
      · cases h
  · cases h

/-- A call that follows a reply has read that there is one. -/
theorem follows_step {w w' : World} {a : Action} (hw : Threaded w) (h : step w a = some w')
    {j : CallId} {tx : IngestTx} (hj : (∃ target, w'.call j = .threading tx target) ∨
      (∃ id, w'.call j = .targeted tx id)) : tx.request.message.replyTarget.isSome = true := by
  by_cases hja : j = a.call
  · subst hja
    have hmoved := step_moved h
    generalize hc : w'.call a.call = c at hj hmoved
    cases hmoved with
    | @follows i tx' target hcall =>
        rcases hj with ⟨_, hj⟩ | ⟨_, hj⟩
        · cases hj
          obtain ⟨tx'', threadId, hcall', _, _, hw'⟩ := readThread_of_step h
          rw [hcall] at hcall'
          cases hcall'
          rw [hw', Action.call, World.setCall_self] at hc
          simp only [afterThread] at hc
          split at hc
          next htarget =>
            rw [htarget]
            rfl
          · cases hc
        · cases hj
    | @readTarget i tx' target m hcall =>
        rcases hj with ⟨_, hj⟩ | ⟨_, hj⟩
        · cases hj
        · cases hj
          exact hw.follows i tx (Or.inl ⟨target, hcall⟩)
    | _ => rcases hj with ⟨_, hj⟩ | ⟨_, hj⟩ <;> cases hj
  · rw [step_call_other h hja] at hj
    exact hw.follows j tx hj

/-- A transaction without a reply goes on with a conversation of its thread. -/
theorem read_step {w w' : World} {a : Action} (hw : Threaded w) (h : step w a = some w') {j : CallId}
    {tx : IngestTx} {c : Conversation} {channelId : Id} {threadId : String}
    (hread : (w'.call j).chat? = some (tx, some c)) (hopens : tx.request.Opens channelId threadId) :
    InThread w'.db channelId threadId c.id := by
  by_cases hja : j = a.call
  · subst hja
    rw [db_of_tx? h (tx?_of_chat? hread)]
    have hmoved := step_moved h
    generalize hc : w'.call a.call = call at hread hmoved
    cases hmoved with
    | @readOpen i found tx' hcall _ =>
        obtain ⟨tx'', hcall', hnone, _⟩ := readOpen_of_step h
        rw [hcall] at hcall'
        cases hcall'
        simp only [Call.chat?, Option.some.injEq, Prod.mk.injEq] at hread
        obtain ⟨rfl, _⟩ := hread
        rw [hopens.thread] at hnone
        cases hnone
    | @readThread i found tx' threadId' hcall _ =>
        obtain ⟨tx'', threadId'', hcall', hthread, hfound, _⟩ := readThread_of_step h
        rw [hcall] at hcall'
        cases hcall'
        simp only [Call.chat?, Option.some.injEq, Prod.mk.injEq] at hread
        obtain ⟨rfl, hhead⟩ := hread
        rw [hopens.thread] at hthread
        cases hthread
        obtain ⟨hmem, hin⟩ := hfound.selected c (List.mem_of_mem_head? hhead)
        rw [hopens.channel] at hin
        exact ⟨c, hmem, rfl, hin⟩
    | readConversation hcall =>
        simp only [Call.chat?, Option.some.injEq, Prod.mk.injEq] at hread
        obtain ⟨rfl, _⟩ := hread
        have hreply := hw.follows _ _ (Or.inr ⟨_, hcall⟩)
        rw [hopens.noReply] at hreply
        cases hreply
    | readReplyTarget hcall =>
        cases hread
        exact hw.read _ _ _ _ _ (by rw [hcall]; rfl) hopens
    | _ => cases hread
  · rw [step_call_other h hja] at hread
    exact inThread_kept h (hw.read j tx c channelId threadId hread hopens)

/-! ## The step -/

/-- A conversation that is created for a thread whose id fits is in that thread. -/
theorem inThread_of_starts {w : World} {a : Action} {i : CallId} {tx : IngestTx} {c' : Conversation}
    (hstarts : Starts w a i tx c') {threadId : String} (hthread : tx.request.thread? = some threadId)
    (hfits : (codeUnits threadId).length ≤ 512) :
    inThread tx.request.channel.id threadId c' = true := by
  obtain ⟨createdAt, assignee, replyTo, _, hrow⟩ := hstarts.row
  have hcolumn : c'.externalThreadId = tx.request.thread?.map fun s => (codeUnits s).take 512 := by
    rw [hrow]
    rfl
  rw [inThread_iff, hcolumn, hthread, Option.map_some, List.take_of_length_le hfits]
  refine ⟨?_, rfl⟩
  rw [hrow]
  rfl

/-- A thread id that does not fit its column finds no conversation that an ingest
has created, not even one for this thread. -/
theorem not_inThread_of_long {w : World} {a : Action} {i : CallId} {tx : IngestTx} {c' : Conversation}
    (hstarts : Starts w a i tx c') {threadId : String} (hlong : 512 < (codeUnits threadId).length)
    (channelId : Id) : inThread channelId threadId c' = false := by
  by_contra hin
  have hcolumn := (inThread_iff.mp (by simpa using hin)).2
  obtain ⟨_, _, _, _, hrow⟩ := hstarts.row
  rw [hrow] at hcolumn
  obtain ⟨own, _, hunits⟩ := Option.map_eq_some_iff.mp hcolumn
  have hlength := List.length_take_le 512 (codeUnits own)
  rw [hunits] at hlength
  exact absurd hlong (Nat.not_lt.mpr hlength)

/-- The call of a commit that creates a conversation was not overtaken. -/
theorem fits_of_starts {w w' : World} {a : Action} (hgood : NotOvertaken w a w') {i : CallId}
    {tx : IngestTx} {c' : Conversation} (hstarts : Starts w a i tx c') {threadId : String}
    (hthread : tx.request.thread? = some threadId) :
    (codeUnits threadId).length ≤ 512 ∧
      ∀ c ∈ w.db.conversations.rows, inThread tx.request.channel.id threadId c = false := by
  obtain ⟨replyTo, hcall⟩ := hstarts.call
  obtain ⟨_, _, _, haction, _⟩ := hstarts.row
  exact hgood i _ _ _ tx replyTo threadId haction hcall hthread

/-- A conversation that was created in a thread is the only one of it. -/
theorem none_inThread_of_starts {w w' : World} {a : Action} (hgood : NotOvertaken w a w') {i : CallId}
    {tx : IngestTx} {c' : Conversation} (hstarts : Starts w a i tx c') {channelId : Id}
    {threadId : String} (hin : inThread channelId threadId c' = true) {c : Conversation}
    (hc : c ∈ w.db.conversations.rows) : inThread channelId threadId c = false := by
  obtain ⟨hchannel, hcolumn⟩ := inThread_iff.mp hin
  obtain ⟨_, _, _, _, hrow⟩ := hstarts.row
  cases hthread : tx.request.thread? with
  | none =>
      have hempty : c'.externalThreadId = tx.request.thread?.map fun s => (codeUnits s).take 512 := by
        rw [hrow]
        rfl
      rw [hthread, hcolumn] at hempty
      cases hempty
  | some own =>
      obtain ⟨hfits, hnone⟩ := fits_of_starts hgood hstarts hthread
      obtain ⟨hown, hcolumn'⟩ := inThread_iff.mp (inThread_of_starts hstarts hthread hfits)
      have hunits : codeUnits own = codeUnits threadId :=
        Option.some.inj (hcolumn'.symm.trans hcolumn)
      have hc := hnone c hc
      rw [hown.symm.trans hchannel] at hc
      rw [← hc]
      simp only [inThread, hunits]

theorem thread_one_step {w w' : World} {a : Action} (hw : Threaded w) (h : step w a = some w')
    (hgood : NotOvertaken w a w') {channelId : Id} {threadId : String} {b c : Conversation}
    (hb : b ∈ w'.db.conversations.rows) (hc : c ∈ w'.db.conversations.rows)
    (hbin : inThread channelId threadId b = true) (hcin : inThread channelId threadId c = true) :
    b.id = c.id := by
  rcases conversation_of_step h hb with ⟨b₀, hb₀, hbchange⟩ | ⟨i, tx, hbstarts⟩
  · have hbsame := sameThread_of_change hbchange
    have hb₀in := (hbsame.inThread_iff channelId threadId).mp hbin
    rcases conversation_of_step h hc with ⟨c₀, hc₀, hcchange⟩ | ⟨j, tx', hcstarts⟩
    · have hcsame := sameThread_of_change hcchange
      have hc₀in := (hcsame.inThread_iff channelId threadId).mp hcin
      rw [hbsame.id, hcsame.id]
      exact hw.one channelId threadId b₀ hb₀ c₀ hc₀ hb₀in hc₀in
    · rw [none_inThread_of_starts hgood hcstarts hcin hb₀] at hb₀in
      cases hb₀in
  · rcases conversation_of_step h hc with ⟨c₀, hc₀, hcchange⟩ | ⟨j, tx', hcstarts⟩
    · have hc₀in := ((sameThread_of_change hcchange).inThread_iff channelId threadId).mp hcin
      rw [none_inThread_of_starts hgood hbstarts hbin hc₀] at hc₀in
      cases hc₀in
    · exact id_of_starts hbstarts hcstarts

/-- A message that opens a thread is stored in a conversation of it. -/
theorem inThread_of_inserts {w w' : World} {a : Action} (hw : Threaded w) (h : step w a = some w')
    (hgood : NotOvertaken w a w') {i : CallId} {request : IngestRequest} {result : IngestResult}
    (hins : Inserts w w' a i request result) {channelId : Id} {threadId : String}
    (hopens : request.Opens channelId threadId) :
    InThread w'.db channelId threadId result.conversationId := by
  obtain ⟨tx, read, replyTo, _, _, _, rfl, hcall, rfl, _, c', hc', hid, hwhich⟩ :=
    commit_of_inserts h hins
  rcases hwhich with ⟨c, rfl, hcid⟩ | hstarts
  · rw [← hid, ← hcid]
    exact inThread_kept h (hw.read i tx c channelId threadId (by rw [hcall]; rfl) hopens)
  · obtain ⟨hfits, _⟩ := fits_of_starts hgood hstarts hopens.thread
    have hin := inThread_of_starts hstarts hopens.thread hfits
    rw [hopens.channel] at hin
    exact ⟨c', hc', hid, hin⟩

theorem threaded_step {w w' : World} {a : Action} (hw : Threaded w) (h : step w a = some w')
    (hgood : NotOvertaken w a w') : Threaded w' where
  one channelId threadId b hb c hc hbin hcin := thread_one_step hw h hgood hb hc hbin hcin
  follows i tx hi := follows_step hw h hi
  read i tx c channelId threadId hread hopens := read_step hw h hread hopens
  stored i request result channelId threadId hi hfresh hopens := by
    rcases step_ingested h hi with hold | ⟨_, hfound⟩ | hins
    · exact inThread_kept h (hw.stored i request result channelId threadId hold hfresh hopens)
    · obtain ⟨_, _, _, _, hdup⟩ := findDuplicate_eq_some hfound
      rw [hdup] at hfresh
      cases hfresh
    · exact inThread_of_inserts hw h hgood hins hopens

/-! ## The run -/

/-- No call is under way, and no thread has two conversations. -/
structure ThreadStart (w : World) : Prop where
  idle : w.Idle
  one : ∀ channelId threadId, w.db.conversations.count (inThread channelId threadId) ≤ 1

theorem threaded_of_start {w : World} (h : ThreadStart w) : Threaded w where
  one channelId threadId := Conversation.count_le_one_iff.mp (h.one channelId threadId)
  follows i tx hi := by
    rw [h.idle i] at hi
    rcases hi with ⟨_, hi⟩ | ⟨_, hi⟩ <;> cases hi
  read i tx c channelId threadId hread := by
    rw [h.idle i] at hread
    cases hread
  stored i request result channelId threadId hi := by
    rw [h.idle i] at hi
    cases hi

theorem oneThread_of_threaded {w : World} (hw : Threaded w) : OneThread w where
  conversation channelId threadId := Conversation.count_le_one_iff.mpr (hw.one channelId threadId)
  messages channelId threadId i j request request' result result' hi hj hfresh hfresh' hopens
      hopens' := by
    obtain ⟨c, hc, hid, hin⟩ := hw.stored i request result channelId threadId hi hfresh hopens
    obtain ⟨c', hc', hid', hin'⟩ := hw.stored j request' result' channelId threadId hj hfresh' hopens'
    rw [← hid, ← hid']
    exact hw.one channelId threadId c hc c' hc' hin hin'

/-- Along every run in which no transaction that starts a conversation for a thread
is overtaken, every thread has one conversation. -/
theorem oneThread_of_run {w₀ w : World} {as : List Action} (hstart : ThreadStart w₀)
    (hgood : machine.Along NotOvertaken w₀ as) (h : machine.run w₀ as = some w) : OneThread w :=
  oneThread_of_threaded <| Machine.invariant_along (M := machine) (P := NotOvertaken) (I := Threaded)
    (fun _ _ _ hI hs hP => threaded_step hI hs hP) (threaded_of_start hstart) hgood h

/-! ## Two senders of one thread -/

/-- A mail in a thread. -/
def mailRequest (messageId sender threadId : String) : IngestRequest where
  channel := { exampleChannel with provider := .emailSmtpImap }
  message := { providerMessageId := messageId, sender := { identifier := sender }, timestamp := 1,
               content := .text "Hello", threadId := some threadId }
  providerEventId := messageId
  messageId := messageId

/-- An ingest of a mail up to its lookup of the thread. -/
def mailRead (i : CallId) (request : IngestRequest) (found : List Conversation) : List Action :=
  let sender := request.message.sender.identifier
  [.ingest i request, .lock i, .readSender i 2 ("contact of " ++ sender) sender, .readThread i found]

/-- The rest of an ingest of a mail. -/
def mailWrite (i : CallId) (conversationId : Id) : List Action :=
  [.readReplyTarget i, .commitIngest i conversationId 3 none]

/-- Whether a transaction that starts a conversation was overtaken. -/
def overtakenTest (w : World) : Action → Bool
  | .commitIngest i _ _ _ =>
      match w.call i with
      | .writing tx none _ =>
          tx.request.thread?.all fun threadId => (codeUnits threadId).length ≤ 512 &&
            w.db.conversations.rows.all fun c => !inThread tx.request.channel.id threadId c
      | _ => true
  | _ => true

theorem notOvertaken_of_test {w w' : World} {a : Action} (h : overtakenTest w a = true) :
    NotOvertaken w a w' := by
  rintro i conversationId createdAt assignee tx replyTo threadId rfl hcall hthread
  simp only [overtakenTest, hcall, hthread, Option.all_some, Bool.and_eq_true, decide_eq_true_eq,
    List.all_eq_true, Bool.not_eq_true'] at h
  exact h

theorem threadStart_init : ThreadStart World.init where
  idle _ := rfl
  one _ _ := Nat.zero_le _

/-- The conversation that the first mail of a thread starts. -/
def mailConversation : Conversation :=
  let fresh := newConversation (mailRequest "m1" "a" "root") ⟨"a", "contact of a", none⟩ "c1" 3 none
  counted fresh 1 "Hello" fresh

/-- Two senders write to one thread, one after the other. -/
def turnsRun : List Action :=
  mailRead 0 (mailRequest "m1" "a" "root") [] ++ mailWrite 0 "c1" ++
    mailRead 1 (mailRequest "m2" "b" "root") [mailConversation] ++ mailWrite 1 "c2"

/-- The theorem at that run, which stores both mails in one conversation. -/
theorem oneThread_turnsRun :
    ∃ w, machine.run World.init turnsRun = some w ∧ OneThread w ∧
      w.db.messages.rows.map (fun m => (m.id, m.conversationId)) = [("m1", "c1"), ("m2", "c1")] := by
  have hview : (machine.run World.init turnsRun).map (fun w =>
      w.db.messages.rows.map fun m => (m.id, m.conversationId))
        = some [("m1", "c1"), ("m2", "c1")] := by decide
  obtain ⟨w, hw, hrows⟩ := Option.map_eq_some_iff.mp hview
  refine ⟨w, hw, oneThread_of_run threadStart_init ?_ hw, hrows⟩
  exact Machine.along_of_checks (p := overtakenTest) (fun _ _ _ h => notOvertaken_of_test h)
    (by decide)

/-- Both senders look the thread up before either commits. -/
def raceRun : List Action :=
  mailRead 0 (mailRequest "m1" "a" "root") [] ++ mailRead 1 (mailRequest "m2" "b" "root") [] ++
    mailWrite 0 "c1" ++ mailWrite 1 "c2"

/-- The thread then has two conversations. -/
theorem not_oneThread :
    ¬ ∀ w₀ w as, ThreadStart w₀ → machine.run w₀ as = some w → OneThread w := by
  intro hall
  have hview : (machine.run World.init raceRun).map (fun w =>
      w.db.conversations.count (inThread "channel" "root")) = some 2 := by decide
  obtain ⟨w, hw, hcount⟩ := Option.map_eq_some_iff.mp hview
  have hone := (hall World.init w raceRun threadStart_init hw).conversation "channel" "root"
  rw [hcount] at hone
  exact absurd hone (by decide)

end Vynor.Conversations
