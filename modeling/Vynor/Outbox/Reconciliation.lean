import Vynor.Journal.Events
import Vynor.Lib.Selection
import Vynor.Outbox.Dispatcher
import Vynor.Schema

/-!
# Reconciliation

`OutboxReconciliationService.findLostJobs`.  Its query selects the rows that are
`COMPLETED`, were dispatched between 24 hours and 10 minutes ago, and whose work
is still pending.  Of these, the rows whose job the queue does not hold are lost.
A check only reads, so it is no action of a machine.

The query has a limit, and the jobs are looked up among the rows that are left.
Whether the alert says that there are more goes by the jobs that are lost and not
by the rows the query returned, so rows whose job is held can hide lost ones.
-/

namespace Vynor.Outbox

open Lib (Table)
open Queue (Job outboxJobKey queueForEventType)
open Journal (ProviderEvent ProviderEventStatus PROVIDER_EVENT_RECEIVED)

/-! ## Constants -/

/-- Ten minutes. -/
def RECONCILIATION_STALE_AFTER_MS : Date := 10 * 60000

/-- A day. -/
def LOOKBACK_MS : Date := 24 * 60 * 60000

/-- Candidates a check looks at. -/
def CANDIDATE_LIMIT : Nat := 500

/-! ## The query -/

/-- `p.status IN ('RECEIVED', 'PROCESSING')`. -/
def workPending : ProviderEventStatus → Bool
  | .received => true
  | .processing => true
  | _ => false

/-- The reply an event asks for is still `PENDING`. -/
def replyPending (messages : Messages) (o : OutboxEvent) : Bool :=
  messages.rows.any fun m => o.payload.get? "messageId" = some m.id && m.status = .pending

/-- The provider event that is handed over is still to be processed. -/
def eventPending (providerEvents : Table ProviderEvent ProviderEvent.keys) (o : OutboxEvent) :
    Bool :=
  providerEvents.rows.any fun p =>
    o.payload.get? "providerEventId" = some p.id && workPending p.status

/-- `o.dispatched_at` lies in the window of a check.  A null compares as
unknown. -/
def OutboxEvent.inWindow (now : Date) (o : OutboxEvent) : Bool :=
  match o.dispatchedAt with
  | some dispatchedAt =>
      now - LOOKBACK_MS ≤ dispatchedAt && dispatchedAt ≤ now - RECONCILIATION_STALE_AFTER_MS
  | none => false

/-- The `WHERE` of the query. -/
def candidate (messages : Messages) (providerEvents : Table ProviderEvent ProviderEvent.keys)
    (now : Date) (o : OutboxEvent) : Bool :=
  o.status = .completed && o.inWindow now &&
    (o.eventType = "message.outbound.requested" && replyPending messages o ||
      o.eventType = PROVIDER_EVENT_RECEIVED && eventPending providerEvents o)

/-- `ORDER BY o.dispatched_at`.  Nulls come last. -/
def dispatchedFirst (a b : OutboxEvent) : Bool :=
  match a.dispatchedAt, b.dispatchedAt with
  | some d, some d' => d ≤ d'
  | none, some _ => false
  | _, none => true

/-- The query can return these candidates. -/
def Candidates (t : Events) (messages : Messages)
    (providerEvents : Table ProviderEvent ProviderEvent.keys) (now : Date)
    (candidates : List OutboxEvent) : Prop :=
  t.Selects (candidate messages providerEvents now) dispatchedFirst CANDIDATE_LIMIT candidates

instance (t : Events) (messages : Messages)
    (providerEvents : Table ProviderEvent ProviderEvent.keys) (now : Date)
    (candidates : List OutboxEvent) :
    Decidable (Candidates t messages providerEvents now candidates) :=
  inferInstanceAs (Decidable (Table.Selects _ _ _ _ _))

/-! ## Lost jobs -/

/-- `LostOutboxJob.replay`. -/
inductive Replay where
  | safe
  | review
deriving DecidableEq, Repr

/-- `LostOutboxJob`.  The query leaves no `dispatchedAt` null. -/
structure LostOutboxJob where
  eventId : Id
  eventType : String
  dispatchedAt : Option Date
  replay : Replay
deriving DecidableEq, Repr

/-- What is reported of a candidate. -/
def lostJob (candidate : OutboxEvent) : LostOutboxJob where
  eventId := candidate.id
  eventType := candidate.eventType
  dispatchedAt := candidate.dispatchedAt
  replay := if candidate.eventType = "webhook.received" then .safe else .review

/-- A candidate that the loop does not pass over: its type has a queue, and the
queue does not hold its job. -/
def isLost (held : List Job) (candidate : OutboxEvent) : Bool :=
  match queueForEventType candidate.eventType with
  | some queue => ¬ HoldsJob held queue (outboxJobKey candidate.id)
  | none => false

/-- `findLostJobs`, with what the query returned.  It answers null while BullMQ
is not running. -/
def findLostJobs (isRunning : Bool) (held : List Job) (candidates : List OutboxEvent) :
    Option (List LostOutboxJob) :=
  if isRunning then some ((candidates.filter (isLost held)).map lostJob) else none

/-- A completed event in the window is reported when its provider event is still
to be processed and its job is gone, unless the query had to leave rows out. -/
theorem mem_findLostJobs {t : Events} {messages : Messages}
    {providerEvents : Table ProviderEvent ProviderEvent.keys} {now : Date}
    {candidates : List OutboxEvent} {held : List Job} {lost : List LostOutboxJob} {o : OutboxEvent}
    (hcandidates : Candidates t messages providerEvents now candidates)
    (hfew : t.count (candidate messages providerEvents now) ≤ CANDIDATE_LIMIT)
    (hlost : findLostJobs true held candidates = some lost) (ho : o ∈ t.rows)
    (hstatus : o.status = .completed) (hwindow : o.inWindow now = true)
    (htype : o.eventType = PROVIDER_EVENT_RECEIVED) (hevent : eventPending providerEvents o = true)
    (hgone : ¬ HoldsJob held .webhooksProcess (outboxJobKey o.id)) : lostJob o ∈ lost := by
  cases hlost
  have hselected : candidate messages providerEvents now o = true := by
    simp [candidate, hstatus, hwindow, htype, hevent]
  refine List.mem_map_of_mem (List.mem_filter.mpr ⟨hcandidates.mem_of_count_le hfew ho hselected, ?_⟩)
  have hqueue : queueForEventType o.eventType = some .webhooksProcess := by
    rw [htype]
    decide +kernel
  simp [isLost, hqueue, hgone]

/-! ## The alert -/

/-- What `check` logs as an error.  `events` are the first fifty. -/
structure ReconciliationAlert where
  count : Nat
  truncated : Bool
  events : List LostOutboxJob
deriving DecidableEq, Repr

/-- A log line of `check`. -/
inductive ReconciliationLog where
  | alert (alert : ReconciliationAlert)
  | checkFailed (message : String)
deriving DecidableEq, Repr

/-- `check`, with what `findLostJobs` gave or threw: its answer and its log. -/
def check : Except String (Option (List LostOutboxJob)) →
    Option (List LostOutboxJob) × Option ReconciliationLog
  | .ok none => (none, none)
  | .ok (some lost) =>
      if lost.length > 0 then
        (some lost, some (.alert ⟨lost.length, lost.length ≥ CANDIDATE_LIMIT, lost.take 50⟩))
      else (some lost, none)
  | .error message => (none, some (.checkFailed message))

/-- The alert of these jobs says that there are more. -/
def MarkedTruncated (lost : List LostOutboxJob) : Prop :=
  ∃ alert, (check (.ok (some lost))).2 = some (.alert alert) ∧ alert.truncated = true

theorem markedTruncated_iff {lost : List LostOutboxJob} :
    MarkedTruncated lost ↔ CANDIDATE_LIMIT ≤ lost.length := by
  constructor
  · rintro ⟨alert, hcheck, htruncated⟩
    rw [check] at hcheck
    split at hcheck
    · cases hcheck
      exact of_decide_eq_true htruncated
    · cases hcheck
  · intro hfull
    have hpos : lost.length > 0 := Nat.lt_of_lt_of_le (by decide) hfull
    exact ⟨_, by rw [check, if_pos hpos], decide_eq_true hfull⟩

section Completeness

variable (messages : Messages) (providerEvents : Table ProviderEvent ProviderEvent.keys)
  (held : List Job) (now : Date)

/-- A completed event in the window whose work is undone and whose job the queue
does not hold. -/
def Lost (o : OutboxEvent) : Prop :=
  o.status = .completed ∧ o.inWindow now = true ∧
    (o.eventType = "message.outbound.requested" ∧ replyPending messages o = true ∧
        ¬ HoldsJob held .messagesOutbound (outboxJobKey o.id) ∨
      o.eventType = PROVIDER_EVENT_RECEIVED ∧ eventPending providerEvents o = true ∧
        ¬ HoldsJob held .webhooksProcess (outboxJobKey o.id))

instance (o : OutboxEvent) : Decidable (Lost messages providerEvents held now o) :=
  inferInstanceAs (Decidable (_ ∧ _ ∧ (_ ∧ _ ∧ _ ∨ _ ∧ _ ∧ _)))

/-- Every lost job of the table is reported, or the alert says that there are
more. -/
def CompleteOrMarked (t : Events) (lost : List LostOutboxJob) : Prop :=
  ∀ o ∈ t.rows, Lost messages providerEvents held now o → lostJob o ∈ lost ∨ MarkedTruncated lost

/-- The rows that the `WHERE` selects and that were dispatched no later reach the
limit of the query, without the row itself. -/
def CanBeLeftOut (t : Events) (o : OutboxEvent) : Prop :=
  CANDIDATE_LIMIT ≤ t.ahead (candidate messages providerEvents now) dispatchedFirst o

/-- The `WHERE` selects the row, and the rows it selects that were dispatched
before do not reach the limit of the query. -/
def CanBeReturned (t : Events) (o : OutboxEvent) : Prop :=
  candidate messages providerEvents now o = true ∧
    t.before (candidate messages providerEvents now) dispatchedFirst o < CANDIDATE_LIMIT

/-- The limit of the query can leave no lost job out, or all it can return is
lost. -/
def LimitSparesLost (t : Events) : Prop :=
  (∀ o ∈ t.rows, Lost messages providerEvents held now o →
      ¬ CanBeLeftOut messages providerEvents now t o) ∨
    ∀ o ∈ t.rows, CanBeReturned messages providerEvents now t o →
      Lost messages providerEvents held now o

variable {messages providerEvents held now}

/-- A row is lost when the query selects it and the loop does not pass it over. -/
theorem lost_iff {o : OutboxEvent} : Lost messages providerEvents held now o ↔
    candidate messages providerEvents now o = true ∧ isLost held o = true := by
  have hoffered : queueForEventType "message.outbound.requested" = some .messagesOutbound := by
    decide +kernel
  have hreceived : queueForEventType PROVIDER_EVENT_RECEIVED = some .webhooksProcess := by
    decide +kernel
  simp only [candidate, Bool.and_eq_true, Bool.or_eq_true, decide_eq_true_eq]
  constructor
  · rintro ⟨hstatus, hwindow, ⟨htype, hpending, hgone⟩ | ⟨htype, hpending, hgone⟩⟩
    · refine ⟨⟨⟨hstatus, hwindow⟩, Or.inl ⟨htype, hpending⟩⟩, ?_⟩
      simp [isLost, htype, hoffered, hgone]
    · refine ⟨⟨⟨hstatus, hwindow⟩, Or.inr ⟨htype, hpending⟩⟩, ?_⟩
      simp [isLost, htype, hreceived, hgone]
  · rintro ⟨⟨⟨hstatus, hwindow⟩, ⟨htype, hpending⟩ | ⟨htype, hpending⟩⟩, hlost⟩
    · refine ⟨hstatus, hwindow, Or.inl ⟨htype, hpending, ?_⟩⟩
      simpa [isLost, htype, hoffered] using hlost
    · refine ⟨hstatus, hwindow, Or.inr ⟨htype, hpending, ?_⟩⟩
      simpa [isLost, htype, hreceived] using hlost

/-- A row of the table is reported exactly when the query returned it and it is
lost. -/
theorem lostJob_mem_iff {t : Events} {candidates : List OutboxEvent} {o : OutboxEvent}
    (hcandidates : Candidates t messages providerEvents now candidates) (ho : o ∈ t.rows) :
    lostJob o ∈ (candidates.filter (isLost held)).map lostJob ↔
      o ∈ candidates ∧ isLost held o = true := by
  rw [List.mem_map]
  constructor
  · rintro ⟨c, hc, heq⟩
    obtain ⟨hmem, hlost⟩ := List.mem_filter.mp hc
    have hid : c.id = o.id := congrArg LostOutboxJob.eventId heq
    have hsame : c = o := Table.eq_of_shared_key (hcandidates.selected c hmem).1 ho
      (List.mem_singleton.mpr rfl) (List.mem_singleton.mpr hid)
    exact hsame ▸ ⟨hmem, hlost⟩
  · rintro ⟨hmem, hlost⟩
    exact ⟨o, List.mem_filter.mpr ⟨hmem, hlost⟩, rfl⟩

/-- The limit is filled with lost jobs exactly when the query filled it and
everything it returned is lost. -/
theorem limit_le_length_filter_iff {t : Events} {candidates : List OutboxEvent}
    (hcandidates : Candidates t messages providerEvents now candidates) :
    CANDIDATE_LIMIT ≤ (candidates.filter (isLost held)).length ↔
      candidates.length = CANDIDATE_LIMIT ∧
        ∀ c ∈ candidates, Lost messages providerEvents held now c := by
  have hle := List.length_filter_le (isLost held) candidates
  constructor
  · intro hfull
    have hlength : candidates.length = CANDIDATE_LIMIT :=
      Nat.le_antisymm hcandidates.length_le (Nat.le_trans hfull hle)
    have hall : (candidates.filter (isLost held)).length = candidates.length :=
      Nat.le_antisymm hle (hlength ▸ hfull)
    refine ⟨hlength, fun c hc => lost_iff.mpr ⟨(hcandidates.selected c hc).2, ?_⟩⟩
    exact List.length_filter_eq_length_iff.mp hall c hc
  · rintro ⟨hlength, hall⟩
    have hfilter : candidates.filter (isLost held) = candidates :=
      List.filter_eq_self.mpr fun c hc => (lost_iff.mp (hall c hc)).2
    rw [hfilter]
    exact Nat.le_of_eq hlength.symm

/-- What one answer of the query leaves out of the report. -/
theorem completeOrMarked_of_candidates {t : Events} {candidates : List OutboxEvent}
    {lost : List LostOutboxJob}
    (hcandidates : Candidates t messages providerEvents now candidates)
    (hlost : findLostJobs true held candidates = some lost) :
    CompleteOrMarked messages providerEvents held now t lost ↔
      (∀ o ∈ t.rows, Lost messages providerEvents held now o → o ∈ candidates) ∨
        candidates.length = CANDIDATE_LIMIT ∧
          ∀ c ∈ candidates, Lost messages providerEvents held now c := by
  cases hlost
  have hmarked : MarkedTruncated ((candidates.filter (isLost held)).map lostJob) ↔
      candidates.length = CANDIDATE_LIMIT ∧
        ∀ c ∈ candidates, Lost messages providerEvents held now c := by
    rw [markedTruncated_iff, List.length_map]
    exact limit_le_length_filter_iff hcandidates
  constructor
  · intro hcomplete
    by_cases htruncated : MarkedTruncated ((candidates.filter (isLost held)).map lostJob)
    · exact Or.inr (hmarked.mp htruncated)
    · refine Or.inl fun o ho hlost => ?_
      have hreported := (hcomplete o ho hlost).resolve_right htruncated
      exact ((lostJob_mem_iff hcandidates ho).mp hreported).1
  · intro hspares o ho hlost
    rcases hspares with hreturned | hfull
    · exact Or.inl ((lostJob_mem_iff hcandidates ho).mpr
        ⟨hreturned o ho hlost, (lost_iff.mp hlost).2⟩)
    · exact Or.inr (hmarked.mpr hfull)

theorem dispatchedFirst_trans (a b c : OutboxEvent) (hab : dispatchedFirst a b = true)
    (hbc : dispatchedFirst b c = true) : dispatchedFirst a c = true := by
  unfold dispatchedFirst at hab hbc ⊢
  cases ha : a.dispatchedAt <;> cases hb : b.dispatchedAt <;> cases hc : c.dispatchedAt <;>
    simp_all only [decide_eq_true_eq, reduceCtorEq]
  exact le_trans hab hbc

theorem dispatchedFirst_total (a b : OutboxEvent) :
    (dispatchedFirst a b || dispatchedFirst b a) = true := by
  unfold dispatchedFirst
  cases a.dispatchedAt <;> cases b.dispatchedAt <;> simp [le_total]

theorem keys_ne_nil (o : OutboxEvent) : o.keys ≠ [] := List.cons_ne_nil _ _

/-- Whatever the query returns, reconciliation reports every lost job or says that
there are more, exactly when the limit of the query can leave no lost job out or
all that the query can return is lost. -/
theorem completeOrMarked_iff {t : Events} :
    (∀ candidates lost, Candidates t messages providerEvents now candidates →
        findLostJobs true held candidates = some lost →
        CompleteOrMarked messages providerEvents held now t lost) ↔
      LimitSparesLost messages providerEvents held now t := by
  constructor
  · intro hall
    by_contra hnot
    obtain ⟨hleft, hreturned⟩ := not_or.mp hnot
    push Not at hleft hreturned
    obtain ⟨o, ho, hlost, hout⟩ := hleft
    obtain ⟨r, hr, ⟨hcandidate, hin⟩, hheld⟩ := hreturned
    have hne : r ≠ o := fun heq => hheld (heq ▸ hlost)
    -- One answer has the row whose job is held and not the one whose job is lost.
    obtain ⟨candidates, hcandidates, hmem, hnotMem⟩ := Table.exists_mem_not_mem
      dispatchedFirst_trans dispatchedFirst_total keys_ne_nil hr hcandidate hne hin hout
    rcases (completeOrMarked_of_candidates hcandidates rfl).mp
      (hall candidates _ hcandidates rfl) with hspares | ⟨_, hlosts⟩
    · exact hnotMem (hspares o ho hlost)
    · exact hheld (hlosts r hmem)
  · intro hspares candidates lost hcandidates hlost
    rw [completeOrMarked_of_candidates hcandidates hlost]
    rcases hspares with hin | hlosts
    · left
      intro o ho hlost
      have hlt := Nat.lt_of_not_le (hin o ho hlost)
      exact hcandidates.mem_of_ahead_lt ho (lost_iff.mp hlost).1 hlt
    · have hreturned : ∀ c ∈ candidates, Lost messages providerEvents held now c := by
        intro c hc
        obtain ⟨hmem, hcandidate⟩ := hcandidates.selected c hc
        have hrefl : dispatchedFirst c c = true := by simpa using dispatchedFirst_total c c
        exact hlosts c hmem ⟨hcandidate, hcandidates.before_lt keys_ne_nil hrefl hc⟩
      by_cases hall : ∀ o ∈ t.rows, Lost messages providerEvents held now o → o ∈ candidates
      · exact Or.inl hall
      · push Not at hall
        obtain ⟨o, ho, hlost, hnotMem⟩ := hall
        have hfull := (hcandidates.passedOver o ho (lost_iff.mp hlost).1 hnotMem).1
        exact Or.inr ⟨hfull, hreturned⟩

end Completeness

/-! ## A backlog of jobs that are held -/

/-- The `n`-th event of the backlog: the same provider event was handed over
again and again. -/
def backlogEvent (n : Nat) : OutboxEvent where
  id := String.ofList (List.replicate n 'e')
  workspaceId := "ws"
  eventType := PROVIDER_EVENT_RECEIVED
  payload := [("providerEventId", "p")]
  correlationId := none
  status := .completed
  dispatchedAt := some 0
  scheduledAt := 0

/-- The queue holds the job of the `n`-th event. -/
def backlogJob (n : Nat) : Job where
  key := outboxJobKey (backlogEvent n).id
  envelope :=
    { jobId := (backlogEvent n).id
      queue := .webhooksProcess
      context := ⟨"c", none, "ws", none, none⟩
      enqueuedAt := 0
      payload := [("providerEventId", "p")] }

/-- A provider event that is still to be processed. -/
def backlogProviderEvents : Table ProviderEvent ProviderEvent.keys where
  rows :=
    [{ id := "p", workspaceId := "ws", providerAccountId := "acc", provider := "telegram",
       channelType := .telegram, providerEventKey := "k", isFingerprinted := false,
       payload := [], retentionDays := 30, purgeAfter := 0, correlationId := none }]
  unique := List.pairwise_singleton _ _

theorem backlogEvent_injective {n m : Nat} (h : (backlogEvent n).id = (backlogEvent m).id) :
    n = m := by
  have hlength := congrArg List.length (String.ofList_injective h)
  simpa using hlength

def backlog (k : Nat) : Events where
  rows := (List.range k).map backlogEvent
  unique := by
    rw [List.pairwise_map]
    refine List.nodup_range.imp fun {n m} hne => ?_
    intro k hn hm
    rw [List.mem_singleton.mp hn] at hm
    exact hne (backlogEvent_injective (List.mem_singleton.mp hm))

/-- Twelve hours after the events were dispatched. -/
def noon : Date := 12 * 60 * 60000

theorem candidate_backlogEvent (n : Nat) :
    candidate .empty backlogProviderEvents noon (backlogEvent n) = true := rfl

/-- The query can return the first `min k 500` events of the backlog. -/
theorem candidates_backlog (k : Nat) : Candidates (backlog k) .empty backlogProviderEvents noon
    ((List.range (min k CANDIDATE_LIMIT)).map backlogEvent) := by
  constructor
  · refine (List.nodup_map_iff_inj_on List.nodup_range).mpr fun n _ m _ h => ?_
    exact backlogEvent_injective (congrArg OutboxEvent.id h)
  · rw [List.length_map, List.length_range]
    exact Nat.min_le_right k CANDIDATE_LIMIT
  · rw [List.pairwise_map]
    exact List.nodup_range.imp fun _ => rfl
  · intro o ho
    obtain ⟨n, hn, rfl⟩ := List.mem_map.mp ho
    have hlt := Nat.lt_of_lt_of_le (List.mem_range.mp hn) (Nat.min_le_left k CANDIDATE_LIMIT)
    exact ⟨List.mem_map_of_mem (List.mem_range.mpr hlt), candidate_backlogEvent n⟩
  · intro o ho _ hnot
    obtain ⟨n, hn, rfl⟩ := List.mem_map.mp ho
    have hbeyond : ¬ n < min k CANDIDATE_LIMIT := fun hlt =>
      hnot (List.mem_map_of_mem (List.mem_range.mpr hlt))
    have hlt := List.mem_range.mp hn
    constructor
    · rw [List.length_map, List.length_range]
      omega
    · intro a ha
      obtain ⟨m, _, rfl⟩ := List.mem_map.mp ha
      rfl

theorem lost_backlogEvent {held : List Job} {n : Nat} :
    Lost .empty backlogProviderEvents held noon (backlogEvent n) ↔
      ¬ HoldsJob held .webhooksProcess (outboxJobKey (backlogEvent n).id) := by
  constructor
  · rintro ⟨_, _, ⟨htype, _⟩ | ⟨_, _, hgone⟩⟩
    · have hother : PROVIDER_EVENT_RECEIVED ≠ "message.outbound.requested" := by decide
      exact absurd htype hother
    · exact hgone
  · intro hgone
    exact ⟨rfl, rfl, Or.inr ⟨rfl, rfl, hgone⟩⟩

/-- The job of the first event is held, and that of an event after the limit is
gone. -/
theorem not_completeOrMarked_backlog {held : List Job} {k n : Nat} (hn : n < k)
    (hafter : CANDIDATE_LIMIT ≤ n)
    (hheld : ¬ Lost .empty backlogProviderEvents held noon (backlogEvent 0))
    (hgone : Lost .empty backlogProviderEvents held noon (backlogEvent n))
    {lost : List LostOutboxJob}
    (hlost : findLostJobs true held ((List.range (min k CANDIDATE_LIMIT)).map backlogEvent)
      = some lost) :
    ¬ CompleteOrMarked .empty backlogProviderEvents held noon (backlog k) lost := by
  rw [completeOrMarked_of_candidates (candidates_backlog k) hlost]
  rintro (hreturned | ⟨_, hlosts⟩)
  · have hmem := hreturned (backlogEvent n) (List.mem_map_of_mem (List.mem_range.mpr hn)) hgone
    obtain ⟨m, hm, heq⟩ := List.mem_map.mp hmem
    have hsame := backlogEvent_injective (congrArg OutboxEvent.id heq)
    have hlt := Nat.lt_of_lt_of_le (List.mem_range.mp hm) (Nat.min_le_right k CANDIDATE_LIMIT)
    omega
  · have hpos : 0 < min k CANDIDATE_LIMIT :=
      Nat.lt_min.mpr ⟨Nat.zero_lt_of_lt hn, by decide⟩
    exact hheld (hlosts (backlogEvent 0) (List.mem_map_of_mem (List.mem_range.mpr hpos)))

/-- The jobs of the first `n` events. -/
theorem holdsJob_backlog {n m : Nat} : HoldsJob ((List.range n).map backlogJob) .webhooksProcess
    (outboxJobKey (backlogEvent m).id) ↔ m < n := by
  constructor
  · rintro ⟨job, hjob, _, hkey⟩
    obtain ⟨k, hk, rfl⟩ := List.mem_map.mp hjob
    have hsame := backlogEvent_injective (Queue.outboxJobKey_injective hkey)
    exact hsame ▸ List.mem_range.mp hk
  · intro hm
    exact ⟨backlogJob m, List.mem_map_of_mem (List.mem_range.mpr hm), rfl, rfl⟩

/-- The jobs of the first 500 events are held, and that of the 501st is gone. -/
theorem not_completeOrMarked : ¬ ∀ (t : Events) (messages : Messages)
    (providerEvents : Table ProviderEvent ProviderEvent.keys) (now : Date)
    (candidates : List OutboxEvent) (held : List Job) (lost : List LostOutboxJob),
    Candidates t messages providerEvents now candidates →
    findLostJobs true held candidates = some lost →
    CompleteOrMarked messages providerEvents held now t lost := by
  intro hall
  have hcomplete := hall (backlog (CANDIDATE_LIMIT + 1)) .empty backlogProviderEvents noon _
    ((List.range CANDIDATE_LIMIT).map backlogJob) _ (candidates_backlog _) (if_pos rfl)
  refine not_completeOrMarked_backlog (Nat.lt_succ_self _) (Nat.le_refl _) ?_ ?_ (if_pos rfl)
    hcomplete
  · rw [lost_backlogEvent, holdsJob_backlog, not_not]
    decide
  · rw [lost_backlogEvent, holdsJob_backlog]
    exact Nat.lt_irrefl _

end Vynor.Outbox
