import Vynor.Conversations.Commits

/-!
# The audit trail of a conversation

`update` writes an audit entry with the status and the assignee before and after
it.  Both are computed from the row it read before its transaction, and the
state after from what it writes with `??`, which takes a null assignee for one
that is not written.  So an entry can disagree with what is stored in two ways:
another update commits between the read and the commit, or the update clears the
assignee.

`ReadsStored` excludes the two.  Nothing else goes wrong: along every run it is
exactly what keeps the trail in step with the conversation.
-/

namespace Vynor.Conversations

open Lib (Table Machine)

/-- What an audit entry records of a conversation. -/
def auditState (c : Conversation) : ConversationStatus × Option Id :=
  (c.status, c.assigneeMembershipId)

/-- What is stored of a conversation. -/
def storedState (c : Id) (w : World) : Option (ConversationStatus × Option Id) :=
  (w.db.conversations.find? c).map auditState

/-- `beforeState` and `afterState` of an audit entry. -/
structure AuditEntry where
  before : ConversationStatus × Option Id
  after : ConversationStatus × Option Id
deriving DecidableEq, Repr

/-- The audit entry a committed transaction wrote for a conversation. -/
def Entry.audit? (c : Id) : Entry → Option AuditEntry
  | .updated c' before after => if c' = c then some ⟨before, after⟩ else none
  | _ => none

/-- The audit entries of a conversation, latest first. -/
def auditTrail (c : Id) (log : List Entry) : List AuditEntry := log.filterMap (Entry.audit? c)

/-- The step writes no audit entry for the conversation, or one that carries the
stored state and starts where the entry before it ended. -/
def Replays (c : Id) (w w' : World) : Prop :=
  auditTrail c w'.log = auditTrail c w.log ∨
    ∃ e, auditTrail c w'.log = e :: auditTrail c w.log ∧ storedState c w' = some e.after ∧
      ∀ previous ∈ (auditTrail c w.log).head?, e.before = previous.after

/-- An update of the conversation that commits still finds what it read, and
does not clear an assignee. -/
def ReadsStored (c : Id) (w : World) (a : Action) : Prop :=
  match a with
  | .commitUpdate i _ _ => ∀ ch, w.call i = .updating ch → ch.conversation.id = c →
      storedState c w = some (auditBefore ch) ∧ ch.assigneeMembershipId ≠ some none
  | _ => True

/-! ## No other writer -/

def Action.isCommitUpdate : Action → Bool
  | .commitUpdate _ _ _ => true
  | _ => false

/-- The system, where only updates change the status and the assignee of the
conversation. -/
def soleWriter (c : Id) : Machine World Action where
  step w a := (step w a).filter fun w' => a.isCommitUpdate || storedState c w' = storedState c w

/-- Any tables, and no call. -/
def World.start (db : Db) : World := ⟨db, [], fun _ => .idle, []⟩

/-! ## What an update plans -/

/-- An update writes a null assignee only over one that is set. -/
theorem clears_of_planUpdate {actor : Actor} {c : Conversation} {request : UpdateConversationRequest}
    {member : Option (Id × String)} {now : Date} {ch : Change}
    (h : planUpdate actor c request member now = some ch) :
    ch.conversation = c ∧ (ch.assigneeMembershipId = some none → c.assigneeMembershipId ≠ none) := by
  simp only [planUpdate, Option.bind_eq_bind, Option.bind_eq_some_iff] at h
  obtain ⟨⟨assignee, events⟩, hassignee, ⟨status, events'⟩, _, heq⟩ := h
  cases heq
  refine ⟨rfl, fun hclears => ?_⟩
  simp only at hclears
  subst hclears
  simp only [planAssignee] at hassignee
  split at hassignee
  · cases hassignee
  next assignee _ =>
    split at hassignee
    · cases hassignee
    next hne =>
      split at hassignee
      · cases hassignee
      · split at hassignee
        · cases hassignee
          exact fun hnone => hne hnone.symm
        · cases hassignee
        · cases hassignee
          exact fun hnone => hne hnone.symm

/-- A call that is about to update has read the row, now or before. -/
theorem readRow_of_step {w w' : World} {a : Action} {j : CallId} {ch : Change}
    (h : step w a = some w') (hj : w'.call j = .updating ch) :
    w.call j = .updating ch ∨ w'.db = w.db ∧
      w.db.conversations.find? ch.conversation.id = some ch.conversation ∧
        (ch.assigneeMembershipId = some none → ch.conversation.assigneeMembershipId ≠ none) := by
  rcases call_of_step (· = .updating ch) h hj with hold | ⟨rfl, _, hmoved, rfl⟩
  · exact Or.inl hold
  · cases hmoved with
    | @plansUpdate i actor conversationId c request member now _ hcall hplan =>
        right
        simp only [step, hcall] at h
        cases hfind : findConversation w.db actor conversationId with
        | none =>
            simp only [hfind] at h
            cases h
            simp [Action.call] at hj
        | some row =>
            simp only [hfind] at h
            obtain ⟨hrow, _⟩ := Option.filter_eq_some_iff.mp hfind
            cases hplan' : planUpdate actor row request member now with
            | none =>
                simp only [hplan'] at h
                cases h
                simp [Action.call] at hj
            | some ch' =>
                simp only [hplan'] at h
                cases h
                have hch : ch' = ch := by
                  simp only [Action.call, World.setCall_self] at hj
                  split at hj
                  · cases hj
                  · exact Call.updating.inj hj
                subst hch
                obtain ⟨rfl, hclears⟩ := clears_of_planUpdate hplan'
                refine ⟨rfl, ?_, hclears⟩
                rw [Conversation.id_of_find? hrow]
                exact hrow

/-! ## One step -/

/-- What holds between the steps: what the updates under way have read, and where
the trail ends. -/
structure Trailed (c : Id) (w : World) : Prop where
  clears : ∀ i ch, w.call i = .updating ch → ch.assigneeMembershipId = some none →
    ch.conversation.assigneeMembershipId ≠ none
  first : auditTrail c w.log = [] → ∀ i ch, w.call i = .updating ch → ch.conversation.id = c →
    storedState c w = some (auditBefore ch)
  ends : ∀ e ∈ (auditTrail c w.log).head?, storedState c w = some e.after

/-- What a step of the system without another writer does: it leaves the trail
and the stored state alone, or it commits an update of the conversation. -/
inductive AuditStep (c : Id) (w : World) : Action → World → Prop where
  | quiet {a : Action} {w' : World} : auditTrail c w'.log = auditTrail c w.log →
      storedState c w' = storedState c w →
      (∀ i ids t ch, a = .commitUpdate i ids t → w.call i = .updating ch → ch.conversation.id ≠ c) →
      AuditStep c w a w'
  | update {i : CallId} {ids : List Id} {createdAt : Date} {ch : Change} {r : Conversation}
      {w' : World} : w.call i = .updating ch → ch.conversation.id = c →
      w.db.conversations.find? c = some r → w'.db.conversations.find? c = some (changed ch r) →
      auditTrail c w'.log = ⟨auditBefore ch, auditAfter ch⟩ :: auditTrail c w.log →
      AuditStep c w (.commitUpdate i ids createdAt) w'

theorem soleWriter_step {c : Id} {w w' : World} {a : Action} (h : (soleWriter c).step w a = some w') :
    step w a = some w' ∧ (a.isCommitUpdate = false → storedState c w' = storedState c w) := by
  obtain ⟨hstep, hguard⟩ := Option.filter_eq_some_iff.mp h
  refine ⟨hstep, fun hother => ?_⟩
  simpa [hother] using hguard

theorem audit_of_step {c : Id} {w w' : World} {a : Action}
    (h : (soleWriter c).step w a = some w') : AuditStep c w a w' := by
  obtain ⟨hstep, hstored⟩ := soleWriter_step h
  rcases step_cases hstep with ⟨hdb, hlog⟩ | ⟨e, hlog, hcommit⟩
  · refine .quiet (by rw [hlog]) (by rw [storedState, hdb, storedState]) ?_
    rintro i ids t ch rfl hcall rfl
    simp only [step, hcall] at hstep
    split at hstep
    · obtain ⟨db, _, rfl⟩ := Option.map_eq_some_iff.mp hstep
      exact absurd hlog (List.cons_ne_self _ _)
    · cases hstep
  · have htrail : auditTrail c w'.log = (e.audit? c).toList ++ auditTrail c w.log := by
      rw [hlog, auditTrail, List.filterMap_cons]
      cases e.audit? c <;> rfl
    cases hcommit with
    | @update i ids createdAt ch db hcall hdb =>
        obtain ⟨hsome, _, hupdate⟩ := commitUpdate_eq_some hdb
        obtain ⟨r, hr⟩ := Option.isSome_iff_exists.mp hsome
        by_cases hid : ch.conversation.id = c
        · subst hid
          refine .update hcall rfl hr ?_ ?_
          · rw [hupdate, Table.find?_updateMany_of_some hr]
            simp [Conversation.id_of_find? hr]
          · simpa [Entry.audit?] using htrail
        · refine .quiet ?_ ?_ ?_
          · simpa [Entry.audit?, hid] using htrail
          · rw [storedState, hupdate, Table.find?_updateMany, storedState]
            cases hrow : w.db.conversations.find? c with
            | none => rfl
            | some row =>
                have hne : ¬ row.id = ch.conversation.id := by
                  rw [Conversation.id_of_find? hrow]
                  exact fun heq => hid heq.symm
                simp [hne]
          · rintro j _ _ ch' heq hcall' hid'
            cases heq
            rw [hcall] at hcall'
            cases hcall'
            exact hid hid'
    | ingest _ _ =>
        exact .quiet (by simpa [Entry.audit?] using htrail) (hstored rfl) (fun _ _ _ _ heq => by cases heq)
    | send _ _ =>
        exact .quiet (by simpa [Entry.audit?] using htrail) (hstored rfl) (fun _ _ _ _ heq => by cases heq)
    | markRead _ _ =>
        exact .quiet (by simpa [Entry.audit?] using htrail) (hstored rfl) (fun _ _ _ _ heq => by cases heq)

/-- An entry carries the stored state when the update found what it read and
cleared no assignee. -/
theorem auditState_changed {ch : Change} {r : Conversation} (hread : auditState r = auditBefore ch)
    (hkeeps : ch.assigneeMembershipId ≠ some none) :
    auditState (changed ch r) = auditAfter ch := by
  obtain ⟨hstatus, hassignee⟩ := Prod.mk.inj hread
  simp only [auditState, changed, auditAfter, Prod.mk.injEq]
  refine ⟨by rw [hstatus], ?_⟩
  match hwritten : ch.assigneeMembershipId with
  | none => simp [hassignee]
  | some none => exact absurd hwritten hkeeps
  | some (some id) => simp

/-- An entry that carries the stored state cleared no assignee. -/
theorem keeps_of_changed {ch : Change} {r : Conversation}
    (hclears : ch.assigneeMembershipId = some none → ch.conversation.assigneeMembershipId ≠ none)
    (h : auditState (changed ch r) = auditAfter ch) : ch.assigneeMembershipId ≠ some none := by
  intro hnone
  have hassignee := (Prod.mk.inj h).2
  simp only [changed, hnone, Option.getD_some, Option.join_some, Option.none_or] at hassignee
  exact hclears hnone hassignee.symm

theorem replays_iff {c : Id} {w w' : World} {a : Action} (hI : Trailed c w)
    (h : (soleWriter c).step w a = some w') : Replays c w w' ↔ ReadsStored c w a := by
  cases audit_of_step h with
  | quiet htrail hstored hother =>
      refine iff_of_true (Or.inl htrail) ?_
      cases a with
      | commitUpdate i ids createdAt =>
          exact fun ch hcall hid => absurd hid (hother i ids createdAt ch rfl hcall)
      | _ => trivial
  | @update i ids createdAt ch r _ hcall hid hr hr' htrail =>
      have hstored : storedState c w = some (auditState r) := by rw [storedState, hr, Option.map_some]
      have hstored' : storedState c w' = some (auditState (changed ch r)) := by
        rw [storedState, hr', Option.map_some]
      constructor
      · rintro (hsame | ⟨e, hcons, hafter, hbefore⟩)
        · rw [hsame] at htrail
          exact absurd htrail.symm (List.cons_ne_self _ _)
        · rw [htrail] at hcons
          cases hcons
          rw [hstored', Option.some.injEq] at hafter
          intro ch' hcall' _
          rw [hcall] at hcall'
          cases hcall'
          refine ⟨?_, keeps_of_changed (hI.clears i ch hcall) hafter⟩
          cases hlast : (auditTrail c w.log).head? with
          | none => exact hI.first (List.head?_eq_none_iff.mp hlast) i ch hcall hid
          | some previous =>
              have hsame : auditBefore ch = previous.after := hbefore previous hlast
              rw [hsame]
              exact hI.ends previous hlast
      · intro hreads
        obtain ⟨hread, hkeeps⟩ := hreads ch hcall hid
        right
        refine ⟨_, htrail, ?_, fun previous hlast => ?_⟩
        · rw [hstored] at hread
          rw [hstored', auditState_changed (Option.some.inj hread) hkeeps]
        · have hends := hI.ends previous hlast
          rw [hread] at hends
          exact Option.some.inj hends

theorem trailed_step {c : Id} {w w' : World} {a : Action} (hI : Trailed c w)
    (h : (soleWriter c).step w a = some w') (hreplays : Replays c w w') : Trailed c w' := by
  obtain ⟨hstep, _⟩ := soleWriter_step h
  refine ⟨fun i ch hi => ?_, fun hnil i ch hi hid => ?_, fun e he => ?_⟩
  · rcases readRow_of_step hstep hi with hold | ⟨_, _, hclears⟩
    · exact hI.clears i ch hold
    · exact hclears
  · cases audit_of_step h with
    | quiet htrail hstored _ =>
        rcases readRow_of_step hstep hi with hold | ⟨hdb, hrow, _⟩
        · rw [hstored]
          exact hI.first (htrail.symm.trans hnil) i ch hold hid
        · rw [storedState, hdb, ← hid, hrow]
          rfl
    | update _ _ _ _ htrail =>
        rw [hnil] at htrail
        cases htrail
  · cases audit_of_step h with
    | quiet htrail hstored _ =>
        rw [htrail] at he
        rw [hstored]
        exact hI.ends e he
    | update _ _ _ _ htrail =>
        rcases hreplays with hsame | ⟨e', hcons, hafter, _⟩
        · rw [hsame] at htrail
          exact absurd htrail.symm (List.cons_ne_self _ _)
        · rw [hcons, List.head?_cons, Option.mem_some_iff] at he
          rw [← he]
          exact hafter

/-! ## Along a run -/

theorem trailed_start (c : Id) (db : Db) : Trailed c (World.start db) where
  clears i ch hi := by cases hi
  first _ i ch hi := by cases hi
  ends e he := by cases he

/-- In every run without another writer, every audit entry carries the state
stored at its commit and starts where the one before it ended, exactly when
every update that commits still finds what it read and clears no assignee. -/
theorem along_replays_iff (c : Id) (db : Db) (as : List Action) :
    (soleWriter c).Along (fun w _ w' => Replays c w w') (World.start db) as ↔
      (soleWriter c).Along (fun w a _ => ReadsStored c w a) (World.start db) as := by
  refine Machine.along_iff_guarded (I := Trailed c) ?_ ?_ (trailed_start c db)
  · intro w a w' hI h
    exact replays_iff hI h
  · intro w a w' hI h hreads
    exact trailed_step hI h ((replays_iff hI h).mpr hreads)

/-! ## An agent who lets a conversation go -/

/-- A conversation of a member. -/
def assignedConversation : Conversation where
  id := "c"
  workspaceId := "workspace"
  providerAccountId := "channel"
  contactId := "contact"
  contactIdentityId := "identity"
  assigneeMembershipId := some "member"
  createdAt := 0

def assignedDb : Db := ⟨.empty, .empty, ⟨[assignedConversation], List.pairwise_singleton _ _⟩, .empty⟩

/-- One update, which clears the assignee. -/
def unassigns : List Action :=
  [.update 0 ⟨"workspace", "member", "Ann", true, true⟩ "c" { assigneeMembershipId := some none }
      none 1,
    .commitUpdate 0 ["u"] 1]

/-- The entry of an update that clears the assignee still names the assignee. -/
theorem not_along_replays : ¬ ∀ (c : Id) (db : Db) (as : List Action),
    (soleWriter c).Along (fun w _ w' => Replays c w w') (World.start db) as := by
  intro h
  have hstored : ((soleWriter "c").run (World.start assignedDb) unassigns.dropLast).bind
      (fun w => ((soleWriter "c").step w (.commitUpdate 0 ["u"] 1)).map fun w' =>
        (auditTrail "c" w.log, auditTrail "c" w'.log, storedState "c" w')) =
      some ([], [⟨(.open, some "member"), (.open, some "member")⟩], some (.open, none)) := by
    decide
  obtain ⟨w, w', hrun, hstep, hview⟩ := Machine.exists_last (f := fun w w' =>
    (auditTrail "c" w.log, auditTrail "c" w'.log, storedState "c" w')) hstored
  simp only [Prod.mk.injEq] at hview
  obtain ⟨hbefore, hafter, hstate⟩ := hview
  have hreplays : Replays "c" w w' := Machine.Along.last (h "c" assignedDb unassigns) hrun hstep
  rcases hreplays with hsame | ⟨e, hcons, hcarries, _⟩
  · rw [hbefore, hafter] at hsame
    cases hsame
  · rw [hbefore, hafter] at hcons
    cases hcons
    rw [hstate] at hcarries
    cases hcarries

end Vynor.Conversations
